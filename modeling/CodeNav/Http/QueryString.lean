/-
Module: CodeNav.Http.QueryString
Purpose: The named parameters of a query string, each given at most once.
Main exports:
  Http.Parameters, Http.Parameters.ofQuery, Http.Parameters.get?
-/
import CodeNav.Http.Message
import CodeNav.Json.Cause
import CodeNav.Text.Percent

namespace CodeNav.Http

/-- Parameters in the order in which they are given. -/
abbrev Parameters := List (String × String)

namespace Parameters

/-- The first of some names that occurs a second time. -/
def repeated? (names : List String) : List String → Parameters → Option String
  | _, [] => none
  | seen, (name, _) :: rest =>
    if !names.contains name then repeated? names seen rest
    else if seen.contains name then some name
    else repeated? names (name :: seen) rest

/-- The parameters of a query. Those of one group may occur once only, and so for each group; the
groups are looked at one after the other. -/
def ofQuery (groups : List (List String)) (query : String) : Except Json.Cause Parameters :=
  let parameters := Text.formPairs query
  match groups.findSome? fun names => repeated? names [] parameters with
  | some name => .error (.duplicateField name)
  | none => .ok parameters

/-- The value of a parameter. -/
def get? (parameters : Parameters) (name : String) : Option String :=
  parameters.lookup name

/-- The response to a query that cannot be read. -/
def refusal (cause : Json.Cause) : Response :=
  .text .badRequest ("Failed to deserialize query string: " ++ cause.message)

end Parameters

end CodeNav.Http
