import Aprovan.Library.Like

/-!
# The record store

Rows under a tenant, a scope and a key, in three backends.  They differ in
which keys a listing by prefix selects.
-/

namespace Aprovan.Server

open Aprovan.Library

/-- `RecordStoreDynamodb`, `RecordStoreSqlite` and `RecordStoreDsql`. -/
inductive RecordBackend where
  | dynamodb
  | sqlite
  | dsql
  deriving DecidableEq

/-- The keys that `list` selects: `begins_with`, or a `LIKE` whose pattern is
the escaped prefix.  Over SQLite the comparison ignores the case of ASCII
letters and the escape letter itself is not escaped. -/
def RecordBackend.selectsKey (backend : RecordBackend) (keyPrefix key : Text) : Bool :=
  match backend with
  | .dynamodb => keyPrefix.isPrefixOf key
  | .sqlite =>
    like (fun left right => left.toLower = right.toLower) '\\' key
      (escapeLetters '\\' ['%', '_'] keyPrefix ++ ['%'])
  | .dsql =>
    keyPrefix.isEmpty || like (fun left right => left = right) '\\' key
        (escapeLetters '\\' ['%', '_', '\\'] keyPrefix ++ ['%'])

end Aprovan.Server
