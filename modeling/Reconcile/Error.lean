import Reconcile.Action
import Reconcile.Duration

/-!
# What can go wrong with resources

The causes for which calls on resources fail, one constructor each, and the message of every
cause. A cause that stems from a failed backend carries the message of that failure as a text.
-/

namespace Reconcile

/-- Why a client for a region cannot be had. -/
inductive ProviderError where
  /-- The provider does not serve the region. -/
  | regionNotEnabled (provider region : String)
  /-- The provider serves no region at all, so none is the default. -/
  | noDefaultRegion (provider : String)
  /-- There is no provider to ask for a client. -/
  | noProviderFor (region : String)
  /-- There is no provider to ask for its default region. -/
  | noProvider
  /-- The client of the region is of another type than the one asked for. -/
  | wrongClient (provider region type : String)
deriving DecidableEq, Repr

/-- The message of a provider error. -/
def ProviderError.message : ProviderError → String
  | regionNotEnabled provider region => provider ++ ": region '" ++ region ++ "' is not enabled"
  | noDefaultRegion provider => provider ++ ": no default region"
  | noProviderFor region => "no provider configured (requested region '" ++ region ++ "')"
  | noProvider => "no provider configured"
  | wrongClient provider region type =>
    provider ++ " client for region '" ++ region ++ "' is not a " ++ type

/-- What a mapper can lack. -/
inductive MissingPart where
  | comparison
  | cloudBackend
  /-- Keys made by a function of one's own cannot be looked up in the store without a codec. -/
  | dbBackendOrCodec
  /-- The store cannot serve a schema without cloud id columns. -/
  | dbBackend
deriving DecidableEq, Repr

/-- The name of the missing part. -/
def MissingPart.text : MissingPart → String
  | comparison => "an equals or changes function"
  | cloudBackend => "a cloud crud"
  | dbBackendOrCodec => "a db crud, or an id_codec matching the custom entity_id"
  | dbBackend => "a db crud (no cloud id columns to derive one from)"

/-- Why a call on resources failed. -/
inductive ResourceError where
  /-- A backend failed in an operation. -/
  | operation (kind : String) (side : Side) (what : Operation) (cause : String)
  /-- The schema of the kind names no column to identify entities by. -/
  | noIdentity (kind : String)
  /-- A mapper was built without one of its parts. -/
  | missingPart (kind : String) (part : MissingPart)
  /-- The fields are not those that a key is made of. -/
  | fieldsMismatch (kind : String) (expected received : List String)
  /-- The codec cannot make a key of the fields. -/
  | fieldsRejected (kind : String) (received : List String)
  /-- What was waited for did not come in time. -/
  | timeout (what : String) (waited : Duration)
  /-- A row to be stored is no object. The row is given by its JSON text. -/
  | rowNotObject (table row : String)
  | provider (error : ProviderError)
  /-- An entity could not be written as a row or read from one. -/
  | json (cause : String)
deriving DecidableEq, Repr

/-- The message of a resource error. -/
def ResourceError.message : ResourceError → String
  | operation kind side what cause =>
    kind ++ " " ++ side.text ++ " " ++ what.text ++ " error: " ++ cause
  | noIdentity kind =>
    "No identity function can be derived for " ++ kind ++
      ": declare cloud id columns or a primary key"
  | missingPart kind part => kind ++ " mapper is missing " ++ part.text
  | fieldsMismatch kind expected received =>
    "Id generation error for " ++ kind ++ ": valid fields are: " ++
      String.intercalate ", " expected ++ "; received: " ++ String.intercalate ", " received
  | fieldsRejected kind received =>
    "Id generation error for " ++ kind ++ ": cannot build a key from: " ++
      String.intercalate ", " received
  | timeout what waited => "Timed out after " ++ waited.render ++ " waiting for " ++ what
  | rowNotObject table row =>
    "Store error: " ++ table ++ ": rows must be JSON objects, got " ++ row
  | provider error => "Provider error: " ++ error.message
  | json cause => "JSON error: " ++ cause

end Reconcile
