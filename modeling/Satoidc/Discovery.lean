import Satoidc.ConsentPage

/-! What `/.well-known/openid-configuration` says of the provider. -/

namespace Satoidc

structure OpenIdConfiguration where
  issuer : String
  authorizationEndpoint : String
  tokenEndpoint : String
  userinfoEndpoint : String
  jwksUri : String
  responseTypesSupported : List String
  grantTypesSupported : List String
  subjectTypesSupported : List String
  idTokenSigningAlgValuesSupported : List String
  scopesSupported : List String
  tokenEndpointAuthMethodsSupported : List String
  claimsSupported : List String
  codeChallengeMethodsSupported : List String
  deriving DecidableEq, Repr

def wellKnown (env : Settings) : OpenIdConfiguration where
  issuer := env.oauth2JwtIss
  authorizationEndpoint := env.oauth2JwtIss ++ "/authorize"
  tokenEndpoint := env.oauth2JwtIss ++ "/oauth/token"
  userinfoEndpoint := env.oauth2JwtIss ++ "/oauth/userinfo"
  jwksUri := env.oauth2JwtIss ++ "/.well-known/jwks.json"
  responseTypesSupported := ["code"]
  grantTypesSupported := ["authorization_code", "refresh_token"]
  subjectTypesSupported := ["public"]
  idTokenSigningAlgValuesSupported := ["RS256"]
  scopesSupported := ConsentPage.availableScopes.map Prod.fst
  tokenEndpointAuthMethodsSupported := ["none", "client_secret_post", "client_secret_basic"]
  claimsSupported := ["sub", "iss", "aud", "exp", "iat", "profile", "email"]
  codeChallengeMethodsSupported := ["S256"]

end Satoidc
