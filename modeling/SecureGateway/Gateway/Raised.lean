import SecureGateway.Resilience.Breaker

/-!
# Exceptions

The exception classes that the gateway's own code raises or catches by name. Any other class
that a library may raise is kept by its name.
-/
namespace SecureGateway

/-- The classes under `httpx.RequestError`, with the bases that can be raised themselves. -/
inductive RequestError where
  | requestError
  | transportError
  | timeoutException
  | connectTimeout
  | readTimeout
  | writeTimeout
  | poolTimeout
  | networkError
  | connectError
  | readError
  | writeError
  | closeError
  | protocolError
  | localProtocolError
  | remoteProtocolError
  | proxyError
  | unsupportedProtocol
  | decodingError
  | tooManyRedirects
  deriving DecidableEq, Repr

/-- `isinstance(error, httpx.TimeoutException)`. -/
def RequestError.isTimeoutException : RequestError → Bool
  | .timeoutException | .connectTimeout | .readTimeout | .writeTimeout | .poolTimeout => true
  | _ => false

structure HTTPException where
  statusCode : ℤ
  detail : String
  headers : List (String × String)
  deriving DecidableEq, Repr

inductive Raised where
  | cancelled
  | requestError (error : RequestError)
  | circuitOpen (error : Resilience.CircuitOpenError)
  | http (error : HTTPException)
  | valueError (message : String)
  | lookupError (message : String)
  | runtimeError (message : String)
  | usernamePolicy (message : String)
  | roleNamePolicy (message : String)
  | permissionCodePolicy (message : String)
  | tokenCreation (message : String)
  | tokenValidation (message : String)
  | authentication (message : String)
  | userAlreadyExists (message : String)
  | userNotFound (message : String)
  | userRepositoryBackend (message : String)
  | authorizationDenied (message : String)
  | roleNotFound (message : String)
  | userAuthorizationNotFound (message : String)
  | authorizationRepositoryBackend (message : String)
  | rateLimitBackend (message : String)
  | loginProtectionBackend (message : String)
  | auditRepositoryBackend (message : String)
  | unknownService (message : String)
  | invalidServiceConfiguration (message : String)
  | other (className : String)
  deriving DecidableEq, Repr

end SecureGateway
