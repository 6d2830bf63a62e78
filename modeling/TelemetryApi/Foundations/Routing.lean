import Mathlib.Data.List.Basic

/-!
# Routes with path parameters

A router tries its routes in order. A route whose path and method both fit is taken
before any that fits in its path only.
-/

namespace TelemetryApi

/-- A piece of a path template: text, or a parameter that takes a segment. -/
inductive PathPiece where
  | text (s : String)
  | param (name : String)
  deriving DecidableEq

/-- The piece as it stands in the template. -/
def PathPiece.format : PathPiece → String
  | .text s => s
  | .param name => "\x7b" ++ name ++ "\x7d"

structure Route where
  methods : List String
  pieces : List PathPiece
  deriving DecidableEq

namespace Route

/-- The template. -/
def path (r : Route) : String := String.join (r.pieces.map PathPiece.format)

/-- Whether the pieces take the whole text. -/
def takes : List PathPiece → List Char → Bool
  | [], text => text.isEmpty
  | .text s :: pieces, text => s.toList.isPrefixOf text && takes pieces (text.drop s.length)
  | .param _ :: pieces, text =>
    (List.range (text.takeWhile (· ≠ '/')).length).any fun n => takes pieces (text.drop (n + 1))

/-- The path fits the template, where one newline may stand behind it. -/
def fits (r : Route) (path : String) : Bool :=
  takes r.pieces path.toList ||
    (path.toList.getLast? == some '\n' && takes r.pieces path.toList.dropLast)

/-- The route that a router takes. -/
def find (routes : List Route) (method path : String) : Option Route :=
  (routes.find? fun r => r.fits path && r.methods.contains method) <|>
    routes.find? fun r => r.fits path

theorem mem_of_find {routes : List Route} {method path : String} {r : Route}
    (h : find routes method path = some r) : r ∈ routes := by
  rw [find] at h
  cases hfull : routes.find? fun r => r.fits path && r.methods.contains method with
  | none =>
    rw [hfull] at h
    exact List.mem_of_find?_eq_some h
  | some r' =>
    rw [hfull] at h
    obtain rfl := Option.some.inj h
    exact List.mem_of_find?_eq_some hfull

end Route

end TelemetryApi
