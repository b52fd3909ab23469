import StateDiagram.Ident
import StateDiagram.Packed.Basic

/-!
# Names in a legend

An identifier is shown under its label, or under a random token if it has none.  Identifiers that
share a name stay apart and are listed as a conflict.
-/

namespace StateDiagram

/-- Random text for the identifier of a kind and index.  It has 32 characters or more. -/
abbrev NameTokens := SymbolKind → Nat → String

namespace PackOptions

/-- The first characters of a token, between one and thirty-two of them. -/
def cutToken (options : PackOptions) (token : String) : String :=
  String.ofList (token.toList.take (max 1 (min options.tokenLength 32)))

def nameOf (options : PackOptions) (token : String) (ident : Ident) : String :=
  if ident.label = "" then options.cutToken token else ident.label

def names (options : PackOptions) (tokens : NameTokens) (kind : SymbolKind)
    (idents : List Ident) : List String :=
  idents.zipIdx.map fun (ident, n) => options.nameOf (tokens kind n) ident

end PackOptions

/-- Where a name stands in a list of names, in ascending order. -/
def indicesOf (name : String) (names : List String) : List Nat :=
  names.zipIdx.filterMap fun (other, n) => if other = name then some n else none

/-- The names that stand more than once, ordered by where they stand first. -/
def nameConflicts (kind : SymbolKind) (names : List String) : List NameConflict :=
  names.eraseDups.filterMap fun name =>
    let indices := indicesOf name names
    if 1 < indices.length then some ⟨kind, name, indices⟩ else none

theorem mem_indicesOf {name : String} {names : List String} {n : Nat} :
    n ∈ indicesOf name names ↔ names[n]? = some name := by
  simp only [indicesOf, List.mem_filterMap, Prod.exists, Option.ite_none_right_eq_some,
    Option.some.injEq]
  constructor
  · rintro ⟨other, m, hmem, rfl, rfl⟩
    exact (List.mem_zipIdx_iff_getElem?.1 hmem)
  · intro h
    exact ⟨name, n, List.mem_zipIdx_iff_getElem?.2 h, rfl, rfl⟩

end StateDiagram
