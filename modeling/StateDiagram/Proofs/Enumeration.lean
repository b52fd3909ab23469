import Mathlib.Data.Finmap
import StateDiagram.Proofs.Index

/-!
# Enumerations

Identifiers numbered from zero in the order in which they are met first.  An enumeration keeps the
numbers twice, as the places in a list and as a map from the identifiers to their places, and
extends the two apart from each other.  They stay inverse to each other, so that the map can be read
off the list.
-/

namespace StateDiagram

structure Enumeration where
  idents : List Ident
  places : Finmap fun _ : Ident => Nat
  deriving DecidableEq

theorem getElem?_concat_eq_some_iff {α : Type} {l : List α} {a b : α} {i : Nat} :
    (l ++ [a])[i]? = some b ↔ l[i]? = some b ∨ i = l.length ∧ a = b := by
  rw [List.getElem?_append]
  split
  · next h => simp [Nat.ne_of_lt h]
  · next h =>
      have hge : l.length ≤ i := Nat.le_of_not_lt h
      have hlast : i - l.length = 0 ↔ i = l.length := by omega
      simp [List.getElem?_singleton, List.getElem?_eq_none hge, hlast]

namespace Enumeration

def empty : Enumeration := ⟨[], ∅⟩

def place? (e : Enumeration) (ident : Ident) : Option Nat := e.places.lookup ident

/-- An identifier that the map does not know goes to the end. -/
def add (e : Enumeration) (ident : Ident) : Enumeration :=
  if ident ∈ e.places then e
  else ⟨e.idents ++ [ident], e.places.insert ident e.idents.length⟩

def ofList (idents : List Ident) : Enumeration := idents.foldl add empty

/-- The map and the list are inverse to each other. -/
def Inverse (e : Enumeration) : Prop :=
  ∀ ident i, e.place? ident = some i ↔ e.idents[i]? = some ident

theorem inverse_empty : empty.Inverse := by
  intro ident i
  simp [place?, empty]

namespace Inverse

variable {e other : Enumeration}

theorem nodup (h : e.Inverse) : e.idents.Nodup := by
  rw [List.nodup_iff_getElem?_ne_getElem?]
  intro i j hlt hj heq
  have hplace : e.place? e.idents[j] = some j := (h _ j).2 (List.getElem?_eq_getElem hj)
  rw [(h _ i).2 (heq.trans (List.getElem?_eq_getElem hj)), Option.some.injEq] at hplace
  omega

theorem place?_eq (h : e.Inverse) (ident : Ident) : e.place? ident = e.idents.idxOf? ident := by
  apply Option.ext
  intro i
  rw [h ident i, idxOf?_eq_some_iff_getElem? h.nodup]

theorem mem_places_iff (h : e.Inverse) {ident : Ident} :
    ident ∈ e.places ↔ ident ∈ e.idents := by
  rw [Finmap.mem_iff, List.mem_iff_getElem?]
  exact exists_congr fun i => h ident i

/-- There is one map that belongs to a list. -/
theorem eq_of_idents_eq (h : e.Inverse) (hother : other.Inverse) (heq : e.idents = other.idents) :
    e = other := by
  have hplaces : e.places = other.places := by
    apply Finmap.ext_lookup
    intro ident
    calc
      e.places.lookup ident = e.idents.idxOf? ident := h.place?_eq ident
      _ = other.idents.idxOf? ident := by rw [heq]
      _ = other.places.lookup ident := (hother.place?_eq ident).symm
  rw [mk.injEq]
  exact ⟨heq, hplaces⟩

theorem idents_add (h : e.Inverse) (ident : Ident) :
    (e.add ident).idents = Assoc.addKey e.idents ident := by
  by_cases hmem : ident ∈ e.idents
  · rw [Assoc.addKey_of_mem hmem, Enumeration.add, if_pos (h.mem_places_iff.2 hmem)]
  · rw [Assoc.addKey, if_neg hmem, Enumeration.add, if_neg (mt h.mem_places_iff.1 hmem)]

theorem add (h : e.Inverse) (ident : Ident) : (e.add ident).Inverse := by
  rw [Enumeration.add]
  split
  · exact h
  · next hnew =>
      rw [h.mem_places_iff] at hnew
      intro other i
      rw [getElem?_concat_eq_some_iff]
      by_cases hother : other = ident
      · -- The new identifier stands at the end only.
        subst hother
        rw [place?, Finmap.lookup_insert, Option.some.injEq]
        constructor
        · rintro rfl
          exact .inr ⟨rfl, rfl⟩
        · rintro (hi | ⟨rfl, -⟩)
          · exact absurd (List.mem_of_getElem? hi) hnew
          · rfl
      · rw [place?, Finmap.lookup_insert_of_ne _ hother, ← place?, h other i]
        simp [Ne.symm hother]

theorem foldl_add (h : e.Inverse) (idents : List Ident) :
    (idents.foldl Enumeration.add e).Inverse ∧
      (idents.foldl Enumeration.add e).idents = idents.foldl Assoc.addKey e.idents := by
  induction idents generalizing e with
  | nil => exact ⟨h, rfl⟩
  | cons ident idents ih =>
      have hrest := ih (h.add ident)
      rwa [h.idents_add] at hrest

end Inverse

theorem inverse_ofList (idents : List Ident) : (ofList idents).Inverse :=
  (inverse_empty.foldl_add idents).1

theorem idents_ofList (idents : List Ident) : (ofList idents).idents = idents.eraseDups := by
  rw [ofList, (inverse_empty.foldl_add idents).2]
  exact (Assoc.eraseDups_append_eq_foldl [] idents).symm

end Enumeration

end StateDiagram
