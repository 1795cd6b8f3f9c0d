import SecureGateway.Python.Dict
import SecureGateway.Python.Unicode

/-! The header filters of `gateway/app/proxy/headers.py`. -/
namespace SecureGateway.Proxy

open Python

def hopByHopHeaders : List String :=
  ["connection", "keep-alive", "proxy-authenticate", "proxy-authorization", "te", "trailer",
    "transfer-encoding", "upgrade"]

def spoofableForwardingHeaders : List String :=
  ["forwarded", "x-forwarded-for", "x-forwarded-host", "x-forwarded-proto", "x-real-ip"]

def spoofableAuthorizationHeaders : List String :=
  ["x-role", "x-user-role", "x-permission", "x-authorization-role"]

def gatewayOwnedObservabilityHeaders : List String := ["x-request-id"]

variable (u : Unicode)

def getConnectionHeaderTokens (headers : List (String × String)) : List String :=
  (headers.filter fun h => u.lower h.1 = "connection").flatMap fun h =>
    ((h.2.splitOn ",").filter fun token => strip token ≠ "").map fun token =>
      u.lower (strip token)

/-- The comprehension both filters end in. -/
def withoutNames (blocked : List String) (headers : List (String × String)) : Dict :=
  Dict.ofPairs (headers.filter fun h => u.lower h.1 ∉ blocked)

def filterRequestHeaders (headers : List (String × String)) : Dict :=
  withoutNames u
    (hopByHopHeaders ++ spoofableForwardingHeaders ++ spoofableAuthorizationHeaders ++
      gatewayOwnedObservabilityHeaders ++ getConnectionHeaderTokens u headers ++
      ["host", "content-length", "accept-encoding"]) headers

def filterResponseHeaders (headers : List (String × String)) : Dict :=
  withoutNames u
    (hopByHopHeaders ++ gatewayOwnedObservabilityHeaders ++ getConnectionHeaderTokens u headers ++
      ["content-length", "content-encoding", "date", "server"]) headers

end SecureGateway.Proxy
