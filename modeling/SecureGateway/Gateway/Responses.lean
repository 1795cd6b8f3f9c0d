import SecureGateway.Auth.Users

/-! The bodies and headers that the routes return. -/
namespace SecureGateway.Gateway

inductive ApiResponse where
  | user (user : UserPublic)
  /-- `TokenResponse`, with the headers set on the response. -/
  | token (accessToken : String) (headers : List (String × String))
  | userRoles (userId : Uuid) (username : String) (roles : List String)
  | roleMutation (userId : Uuid) (username role : String) (changed : Bool)
  | proxied (statusCode : ℤ) (headers : List (String × String)) (content : List UInt8)
  deriving DecidableEq

end SecureGateway.Gateway
