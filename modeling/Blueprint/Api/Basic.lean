import Blueprint.Entity.Access
import Blueprint.Llm.Basic
import Blueprint.Location

/-!
# Interfaces and webhooks

How other programs reach the application: an `ApiInterface` lets them operate on its entities, a
`Webhook` tells them what happens to one.
-/

namespace Blueprint

inductive ApiStyle where
  | rest | graphql | grpc
  deriving DecidableEq

namespace ApiStyle

def all : List ApiStyle := [rest, graphql, grpc]

def spelling : ApiStyle → String
  | rest => "rest"
  | graphql => "graphql"
  | grpc => "grpc"

end ApiStyle

inductive ApiAuth where
  | none | apiKey | oauth2 | jwt
  deriving DecidableEq

namespace ApiAuth

def all : List ApiAuth := [none, apiKey, oauth2, jwt]

def spelling : ApiAuth → String
  | none => "none"
  | apiKey => "api_key"
  | oauth2 => "oauth2"
  | jwt => "jwt"

end ApiAuth

/-- The operations on an entity that an interface offers. -/
structure ApiExposure where
  entity : String
  operations : List AccessOperation
  deriving DecidableEq

structure ApiInterface where
  location : Location
  name : String
  title : Option String := none
  style : ApiStyle := .rest
  version : Option String := none
  auth : ApiAuth := .none
  exposes : List ApiExposure := []
  /-- Requests in a minute that a client may make. -/
  rateLimit : Option Nat := none
  deriving DecidableEq

inductive WebhookEvent where
  | created | updated | deleted
  deriving DecidableEq

namespace WebhookEvent

def all : List WebhookEvent := [created, updated, deleted]

def spelling : WebhookEvent → String
  | created => "created"
  | updated => "updated"
  | deleted => "deleted"

end WebhookEvent

inductive WebhookAuthMethod where
  | hmacSha256 | bearer | basic
  deriving DecidableEq

namespace WebhookAuthMethod

def all : List WebhookAuthMethod := [hmacSha256, bearer, basic]

def spelling : WebhookAuthMethod → String
  | hmacSha256 => "hmac_sha256"
  | bearer => "bearer"
  | basic => "basic"

end WebhookAuthMethod

structure WebhookAuth where
  method : WebhookAuthMethod
  /-- The name under which the secret is found where the application runs. -/
  secret : Option String := none
  deriving DecidableEq

inductive PayloadFormat where
  | json | form
  deriving DecidableEq

namespace PayloadFormat

def all : List PayloadFormat := [json, form]

def spelling : PayloadFormat → String
  | json => "json"
  | form => "form"

end PayloadFormat

structure WebhookPayload where
  included : List String := []
  format : PayloadFormat := .json
  deriving DecidableEq

structure Webhook where
  location : Location
  name : String
  title : Option String := none
  entity : String
  events : List WebhookEvent
  url : String
  auth : Option WebhookAuth := none
  payload : Option WebhookPayload := none
  retry : Option RetryPolicy := none
  deriving DecidableEq

end Blueprint
