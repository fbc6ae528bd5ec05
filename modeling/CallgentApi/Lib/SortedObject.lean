import Mathlib

/-!
# Objects whose keys are in order

An object lists its properties by their keys when the keys are array indices.
A property that is set stands at the place of its key, and replaces the one
that has the key.
-/

namespace CallgentApi

structure SortedObject (key value : Type) [LinearOrder key] where
  entries : List (key × value)
  sorted : entries.Pairwise fun a b => a.1 < b.1

namespace SortedObject

variable {key value : Type} [LinearOrder key]

def empty : SortedObject key value := ⟨[], List.Pairwise.nil⟩

def setEntries (k : key) (v : value) : List (key × value) -> List (key × value)
  | [] => [(k, v)]
  | first :: rest =>
      if first.1 = k then (k, v) :: rest
      else if k < first.1 then (k, v) :: first :: rest
      else first :: setEntries k v rest

theorem mem_setEntries {entries : List (key × value)}
    (h : entries.Pairwise fun a b => a.1 < b.1) {k : key} {v : value}
    {entry : key × value} :
    entry ∈ setEntries k v entries <->
      entry = (k, v) ∨ entry ∈ entries ∧ entry.1 ≠ k := by
  induction entries with
  | nil => simp [setEntries]
  | cons first rest ih =>
      rcases List.pairwise_cons.mp h with ⟨hfirst, hrest⟩
      unfold setEntries
      by_cases hkey : first.1 = k
      · -- the keys behind the first one are greater
        have hkept : entry ∈ rest -> entry.1 ≠ k := by
          intro hmem heq
          have hlt := hfirst entry hmem
          rw [hkey, heq] at hlt
          exact lt_irrefl _ hlt
        rw [if_pos hkey, List.mem_cons, List.mem_cons]
        constructor
        · intro hmem
          rcases hmem with heq | hmem
          · exact Or.inl heq
          · exact Or.inr ⟨Or.inr hmem, hkept hmem⟩
        · intro hmem
          rcases hmem with heq | ⟨heq | hmem, hne⟩
          · exact Or.inl heq
          · rw [heq] at hne
            exact absurd hkey hne
          · exact Or.inr hmem
      · rw [if_neg hkey]
        by_cases hlt : k < first.1
        · have hkept : entry ∈ first :: rest -> entry.1 ≠ k := by
            intro hmem heq
            rcases List.mem_cons.mp hmem with hsame | hmem
            · rw [hsame] at heq
              exact hkey heq
            · have htrans := lt_trans hlt (hfirst entry hmem)
              rw [heq] at htrans
              exact lt_irrefl _ htrans
          rw [if_pos hlt, List.mem_cons]
          exact or_congr Iff.rfl (iff_self_and.mpr hkept)
        · rw [if_neg hlt, List.mem_cons, List.mem_cons, ih hrest]
          constructor
          · intro hmem
            rcases hmem with heq | heq | ⟨hmem, hne⟩
            · refine Or.inr ⟨Or.inl heq, ?_⟩
              rw [heq]
              exact hkey
            · exact Or.inl heq
            · exact Or.inr ⟨Or.inr hmem, hne⟩
          · intro hmem
            rcases hmem with heq | ⟨heq | hmem, hne⟩
            · exact Or.inr (Or.inl heq)
            · exact Or.inl heq
            · exact Or.inr (Or.inr ⟨hmem, hne⟩)

theorem sorted_setEntries {entries : List (key × value)}
    (h : entries.Pairwise fun a b => a.1 < b.1) (k : key) (v : value) :
    (setEntries k v entries).Pairwise fun a b => a.1 < b.1 := by
  induction entries with
  | nil => exact List.pairwise_singleton _ _
  | cons first rest ih =>
      rcases List.pairwise_cons.mp h with ⟨hfirst, hrest⟩
      unfold setEntries
      by_cases hkey : first.1 = k
      · rw [if_pos hkey]
        apply List.pairwise_cons.mpr
        exact ⟨fun entry hmem => hkey ▸ hfirst entry hmem, hrest⟩
      · rw [if_neg hkey]
        by_cases hlt : k < first.1
        · rw [if_pos hlt]
          apply List.pairwise_cons.mpr
          refine ⟨?_, h⟩
          intro entry hmem
          rcases List.mem_cons.mp hmem with heq | hmem
          · rw [heq]
            exact hlt
          · exact lt_trans hlt (hfirst entry hmem)
        · rw [if_neg hlt]
          apply List.pairwise_cons.mpr
          refine ⟨?_, ih hrest⟩
          intro entry hmem
          rcases (mem_setEntries hrest).mp hmem with heq | ⟨hmem, _⟩
          · rw [heq]
            exact lt_of_le_of_ne (not_lt.mp hlt) hkey
          · exact hfirst entry hmem

/-- `object[k] = v`. -/
def set (object : SortedObject key value) (k : key) (v : value) :
    SortedObject key value :=
  ⟨setEntries k v object.entries, sorted_setEntries object.sorted k v⟩

theorem mem_set {object : SortedObject key value} {k : key} {v : value}
    {entry : key × value} :
    entry ∈ (object.set k v).entries <->
      entry = (k, v) ∨ entry ∈ object.entries ∧ entry.1 ≠ k :=
  mem_setEntries object.sorted

def singleton (k : key) (v : value) : SortedObject key value :=
  empty.set k v

theorem mem_singleton {k : key} {v : value} {entry : key × value} :
    entry ∈ (singleton k v).entries <-> entry = (k, v) := by
  show entry ∈ [(k, v)] <-> _
  exact List.mem_singleton

def remove (object : SortedObject key value) (k : key) :
    SortedObject key value :=
  ⟨object.entries.filter fun entry => entry.1 != k, object.sorted.filter _⟩

theorem mem_remove {object : SortedObject key value} {k : key}
    {entry : key × value} :
    entry ∈ (object.remove k).entries <->
      entry ∈ object.entries ∧ entry.1 ≠ k := by
  show entry ∈ object.entries.filter _ <-> _
  rw [List.mem_filter, bne_iff_ne]

/-- `Object.values`. -/
def values (object : SortedObject key value) : List value :=
  object.entries.map Prod.snd

end SortedObject
end CallgentApi
