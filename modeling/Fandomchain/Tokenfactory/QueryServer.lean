import Fandomchain.Tokenfactory.Store

/-!
# Records and parameters by query

`keeper/query_denom.go` and `keeper/query_params.go`. The name in a request is any bytes, and a
failure of the store goes out as a status of gRPC.
-/

namespace Fandomchain.Tokenfactory
open Library

inductive Code where
  | invalidArgument
  | notFound
  | internal
  deriving DecidableEq, Repr

structure Status where
  code : Code
  message : String
  deriving DecidableEq, Repr

structure QueryGetDenomRequest where
  denom : Bytes

structure QueryGetDenomResponse where
  denom : Pb.Denom
  deriving DecidableEq, Repr

structure QueryParamsRequest where

structure QueryParamsResponse where
  params : Pb.Params
  deriving DecidableEq, Repr

namespace KVStore

def queryGetDenom (store : KVStore) :
    Option QueryGetDenomRequest → Except Status QueryGetDenomResponse
  | none => .error ⟨.invalidArgument, "invalid request"⟩
  | some req =>
      match store.getDenom req.denom with
      | .ok val => .ok ⟨val⟩
      | .error .notFound => .error ⟨.notFound, "not found"⟩
      | .error (.encoding _) => .error ⟨.internal, "internal error"⟩

/-- Parameters that were never set are served as the zero ones. -/
def queryParams (store : KVStore) : Option QueryParamsRequest → Except Status QueryParamsResponse
  | none => .error ⟨.invalidArgument, "invalid request"⟩
  | some _ =>
      match store.getParams with
      | .ok params => .ok ⟨params⟩
      | .error .notFound => .ok ⟨Pb.params.zero⟩
      | .error (.encoding _) => .error ⟨.internal, "internal error"⟩

end KVStore

end Fandomchain.Tokenfactory
