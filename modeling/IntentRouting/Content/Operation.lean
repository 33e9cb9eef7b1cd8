import IntentRouting.Content.Gateway

/-!
# Operations as data

Everything that a caller can ask of a gateway about the data of a provider, except for its type, so
that what holds of all of these operations can be said once.
-/

namespace IntentRouting.Gateway

/-- What a caller can ask of a gateway, and the type of the answer. Some operations can be given up
before they are performed. -/
inductive Operation : Type → Type where
  | query (uri : Uri) (projection : Option (List String)) (args : Bundle) (cancelled : Bool) :
      Operation RowStream
  | streamTypes (uri : Uri) (wanted : String) : Operation (List String)
  | openFile (uri : Uri) (letters : String) (cancelled : Bool) : Operation AssetStream
  | openTyped (uri : Uri) (wanted : String) (options : Bundle) (cancelled : Bool) :
      Operation AssetStream
  | canonicalize (uri : Uri) : Operation (Option Uri)
  | uncanonicalize (uri : Uri) : Operation Uri
  | refresh (uri : Uri) (args : Bundle) (cancelled : Bool) : Operation Bool
  | insert (uri : Uri) (values extras : Bundle) : Operation (Option Uri)
  | bulkInsert (uri : Uri) (rows : List Bundle) : Operation Nat
  | update (uri : Uri) (values args : Bundle) : Operation Nat
  | delete (uri : Uri) (args : Bundle) : Operation Nat
  | call (uri : Uri) (method : String) (arg : Option String) (extras : Bundle) :
      Operation (Option Bundle)

namespace Operation

variable {α : Type}

/-- The URI that an operation is about. -/
def uri : Operation α → Uri
  | query uri _ _ _ | streamTypes uri _ | openFile uri _ _ | openTyped uri _ _ _ => uri
  | canonicalize uri | uncanonicalize uri | refresh uri _ _ => uri
  | insert uri _ _ | bulkInsert uri _ | update uri _ _ | delete uri _ | call uri _ _ _ => uri

/-- Whether the caller has given up. -/
def isCancelled : Operation α → Bool
  | query _ _ _ cancelled | openFile _ _ cancelled | openTyped _ _ _ cancelled => cancelled
  | refresh _ _ cancelled => cancelled
  | _ => false

end Operation

variable {ρ α : Type} [ContentProvider ρ]

/-- The answer to an operation of a caller, and the gateway after it. -/
def perform (gateway : Gateway ρ) (caller : Identity) :
    Operation α → Except Error α × Gateway ρ
  | .query uri projection args cancelled => gateway.query caller uri projection args cancelled
  | .streamTypes uri wanted => (gateway.streamTypes caller uri wanted, gateway)
  | .openFile uri letters cancelled => gateway.openFile caller uri letters cancelled
  | .openTyped uri wanted options cancelled =>
      gateway.openTyped caller uri wanted options cancelled
  | .canonicalize uri => (gateway.canonicalize caller uri, gateway)
  | .uncanonicalize uri => (gateway.uncanonicalize caller uri, gateway)
  | .refresh uri args cancelled => gateway.refresh caller uri args cancelled
  | .insert uri values extras => gateway.insert caller uri values extras
  | .bulkInsert uri rows => gateway.bulkInsert caller uri rows
  | .update uri values args => gateway.update caller uri values args
  | .delete uri args => gateway.delete caller uri args
  | .call uri method arg extras => gateway.call caller uri method arg extras

end IntentRouting.Gateway
