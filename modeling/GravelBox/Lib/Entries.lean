/-
# Tables with one entry for each key

`Holds table entries` says that a table is in bijection with a list of entries: no two have
the same key, and looking a key up finds the entry of that key.  A table is built by adding
entries that are made from other values, each of which may fail (`add`); a key that is already
there is refused.  The values can be added if and only if an entry can be made of each and the
keys differ, and then the table holds just these entries (`foldlM_add_ok`, `exists_foldlM_add`).

A fold that may stop anywhere is awkward to reason about: which step fails, and with what, depends
on the table at that moment.  So there is one rule for the fold that comes to its end, one that says
when it does, and one for the first key that is taken (`foldlM_add_taken`); with these no proof
about such a loop has to look at the tables in between.

Keys and entries are of any type.  The order of the entries in a table is not part of `Holds`, as it
is a matter of lookups; a table that holds a list holds every permutation of it.

What makes an entry may fail with an exception of its own, and the exception for a key that is taken
is a function of the key, so that a loop can name it.

Nothing is claimed of a loop that overwrites an entry, or that takes one out.
-/
import GravelBox.Lib.Fallible
import Mathlib.Data.List.AList
import Mathlib.Data.List.Induction

namespace Entries

open Fallible

variable {A E K V : Type}

/-- A key does not come again. -/
theorem key_not_mem {pre post : List (K × V)} {k : K} {v : V}
    (h : ((pre ++ (k, v) :: post).map Prod.fst).Nodup) : k ∉ pre.map Prod.fst := by
  rw [List.map_append, List.map_cons, List.nodup_append] at h
  exact fun hk => h.2.2 k hk k List.mem_cons_self rfl

variable [DecidableEq K]

/-- The table is in bijection with the entries. -/
structure Holds (table : AList fun _ : K => V) (entries : List (K × V)) : Prop where
  keys : (entries.map Prod.fst).Nodup
  lookup : ∀ k v, table.lookup k = some v ↔ (k, v) ∈ entries

theorem Holds.empty : Holds (∅ : AList fun _ : K => V) [] := by
  refine ⟨List.nodup_nil, fun k v => ?_⟩
  rw [AList.lookup_empty]
  simp

/-- A key that is not found is the key of no entry. -/
theorem Holds.lookup_eq_none {table : AList fun _ : K => V} {entries : List (K × V)}
    (h : Holds table entries) {k : K} : table.lookup k = none ↔ k ∉ entries.map Prod.fst := by
  rw [Option.eq_none_iff_forall_ne_some, List.mem_map]
  constructor
  · rintro hnone ⟨⟨k', v⟩, hmem, rfl⟩
    exact hnone v ((h.lookup k' v).mpr hmem)
  · intro hnew v hv
    exact hnew ⟨(k, v), (h.lookup k v).mp hv, rfl⟩

/-- The entries determine what is found. -/
theorem Holds.lookup_eq {table table' : AList fun _ : K => V} {entries : List (K × V)}
    (h : Holds table entries) (h' : Holds table' entries) (k : K) :
    table'.lookup k = table.lookup k := by
  refine Option.ext fun v => ?_
  rw [h'.lookup, h.lookup]

/-- A new entry. -/
theorem Holds.insert {table : AList fun _ : K => V} {entries : List (K × V)}
    (h : Holds table entries) {k : K} (hnew : table.lookup k = none) (v : V) :
    Holds (table.insert k v) (entries ++ [(k, v)]) := by
  have hkey : k ∉ entries.map Prod.fst := h.lookup_eq_none.mp hnew
  constructor
  · rw [List.map_append, List.map_singleton, List.nodup_append]
    refine ⟨h.keys, List.nodup_singleton k, ?_⟩
    intro a ha b hb heq
    obtain rfl : b = k := List.mem_singleton.mp hb
    exact hkey (heq ▸ ha)
  · intro k' v'
    rw [List.mem_append, List.mem_singleton, Prod.mk.injEq]
    rcases eq_or_ne k' k with rfl | hne
    · rw [AList.lookup_insert, Option.some.injEq]
      constructor
      · rintro rfl
        exact .inr ⟨rfl, rfl⟩
      · rintro (hmem | ⟨-, rfl⟩)
        · exact absurd (List.mem_map_of_mem hmem) hkey
        · rfl
    · rw [AList.lookup_insert_ne hne, h.lookup]
      constructor
      · exact Or.inl
      · rintro (hmem | ⟨heq, -⟩)
        · exact hmem
        · exact absurd heq hne

/-! ## Adding entries -/

/-- Make an entry of `a` with `f` and add it; `taken` is the failure for a key that is
already there. -/
def add (f : A → Except E (K × V)) (taken : K → E) (table : AList fun _ : K => V) (a : A) :
    Except E (AList fun _ : K => V) := do
  let e ← f a
  if (table.lookup e.1).isSome then .error (taken e.1) else .ok (table.insert e.1 e.2)

variable {f : A → Except E (K × V)} {taken : K → E}

theorem add_eq_ok {table table' : AList fun _ : K => V} {a : A} :
    add f taken table a = .ok table' ↔
      ∃ k v, f a = .ok (k, v) ∧ table.lookup k = none ∧ table' = table.insert k v := by
  unfold add
  rw [bind_eq_ok]
  constructor
  · rintro ⟨⟨k, v⟩, hf, hrest⟩
    by_cases htaken : (table.lookup k).isSome = true
    · rw [if_pos htaken] at hrest
      cases hrest
    · rw [if_neg htaken] at hrest
      cases hrest
      exact ⟨k, v, hf, Option.not_isSome_iff_eq_none.mp htaken, rfl⟩
  · rintro ⟨k, v, hf, hnew, rfl⟩
    refine ⟨(k, v), hf, ?_⟩
    rw [hnew]
    rfl

/-- **What was added.**  An entry could be made of every value, and they are what the table
holds, besides what it held before. -/
theorem foldlM_add_ok {as : List A} {table table' : AList fun _ : K => V}
    {entries : List (K × V)} (hold : Holds table entries)
    (h : as.foldlM (add f taken) table = .ok table') :
    ∃ new, List.Forall₂ (fun a e => f a = .ok e) as new ∧ Holds table' (entries ++ new) := by
  induction as generalizing table entries with
  | nil =>
    cases h
    refine ⟨[], .nil, ?_⟩
    rw [List.append_nil]
    exact hold
  | cons a as ih =>
    rw [List.foldlM_cons, bind_eq_ok] at h
    obtain ⟨t, hone, hrest⟩ := h
    obtain ⟨k, v, hf, hnew, rfl⟩ := add_eq_ok.mp hone
    obtain ⟨new, hall, hold'⟩ := ih (hold.insert hnew v) hrest
    refine ⟨(k, v) :: new, .cons hf hall, ?_⟩
    rw [List.append_assoc, List.singleton_append] at hold'
    exact hold'

/-- **What can be added**: values of which entries with different keys can be made. -/
theorem exists_foldlM_add (taken : K → E) {as : List A} {new : List (K × V)}
    (hall : List.Forall₂ (fun a e => f a = .ok e) as new) {table : AList fun _ : K => V}
    {entries : List (K × V)} (hold : Holds table entries)
    (hkeys : ((entries ++ new).map Prod.fst).Nodup) :
    ∃ table', as.foldlM (add f taken) table = .ok table' := by
  induction hall generalizing table entries with
  | nil => exact ⟨table, rfl⟩
  | @cons a e as new hf _ ih =>
    obtain ⟨k, v⟩ := e
    have hnew : table.lookup k = none := by
      rw [hold.lookup_eq_none]
      exact key_not_mem hkeys
    have hone : add f taken table a = .ok (table.insert k v) :=
      add_eq_ok.mpr ⟨k, v, hf, hnew, rfl⟩
    rw [← List.singleton_append, ← List.append_assoc] at hkeys
    obtain ⟨table', hrest⟩ := ih (hold.insert hnew v) hkeys
    refine ⟨table', ?_⟩
    rw [List.foldlM_cons, hone]
    exact hrest

/-- **What cannot be added**: values of which entries can be made, at the first key that is there
already. -/
theorem foldlM_add_taken {pre post : List A} {a : A} {new : List (K × V)} {k : K} {v : V}
    (hall : List.Forall₂ (fun a e => f a = .ok e) pre new) (hkeys : (new.map Prod.fst).Nodup)
    (ha : f a = .ok (k, v)) (hk : k ∈ new.map Prod.fst) :
    (pre ++ a :: post).foldlM (add f taken) ∅ = .error (taken k) := by
  obtain ⟨table, htable⟩ := exists_foldlM_add taken hall .empty hkeys
  obtain ⟨new', hall', hold⟩ := foldlM_add_ok .empty htable
  obtain rfl : new' = new := mapM_unique hall' hall
  have htaken : table.lookup k ≠ none := fun hnone => hold.lookup_eq_none.mp hnone hk
  have hone : add f taken table a = .error (taken k) := by
    unfold add
    rw [ha]
    exact if_pos (Option.isSome_iff_ne_none.mpr htaken)
  rw [List.foldlM_append, htable]
  change (a :: post).foldlM (add f taken) table = _
  rw [List.foldlM_cons, hone]
  rfl

/-- The first key that comes twice. -/
theorem exists_taken {entries : List (K × V)} (h : ¬ (entries.map Prod.fst).Nodup) :
    ∃ pre k v post, entries = pre ++ (k, v) :: post ∧ (pre.map Prod.fst).Nodup ∧
      k ∈ pre.map Prod.fst := by
  induction entries using List.reverseRecOn with
  | nil => exact absurd List.nodup_nil h
  | append_singleton entries e ih =>
    obtain ⟨k, v⟩ := e
    by_cases hkeys : (entries.map Prod.fst).Nodup
    · refine ⟨entries, k, v, [], rfl, hkeys, ?_⟩
      by_contra hnew
      refine h ?_
      rw [List.map_append, List.map_singleton, ← List.concat_eq_append]
      exact hkeys.concat hnew
    · obtain ⟨pre, k', v', post, rfl, hpre, hk⟩ := ih hkeys
      exact ⟨pre, k', v', post ++ [(k, v)], List.append_assoc .., hpre, hk⟩

end Entries
