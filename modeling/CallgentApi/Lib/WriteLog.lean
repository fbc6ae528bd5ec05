import Mathlib

/-!
# What is left of a log of writes

A state is written to by one label after the other.  What is read under a key
depends on the labels since the last one that replaced the value; a label that
is none of them can be left out of the log.
-/

namespace CallgentApi
namespace WriteLog

variable {state label key value : Type}

/-- A write replaces the value of a key, changes it in terms of the value that
stands there, or leaves it alone. -/
structure Writes (write : state -> label -> state)
    (read : state -> key -> value) (replaces changes : label -> key -> Bool) :
    Prop where
  replaced : forall a k s s', replaces a k = true ->
    read (write s a) k = read (write s' a) k
  changed : forall a k s s', changes a k = true -> read s k = read s' k ->
    read (write s a) k = read (write s' a) k
  other : forall a k s, replaces a k = false -> changes a k = false ->
    read (write s a) k = read s k

/-- The labels that are still to be seen under a key, and one more. -/
def showNext (replaces changes : label -> key -> Bool) (k : key)
    (shown : List label) (a : label) : List label :=
  if replaces a k then [a]
  else if changes a k then shown ++ [a]
  else shown

/-- The labels that are still to be seen under a key. -/
def shown (replaces changes : label -> key -> Bool) (k : key)
    (log : List label) : List label :=
  log.foldl (showNext replaces changes k) []

theorem shown_append_singleton (replaces changes : label -> key -> Bool)
    (k : key) (log : List label) (a : label) :
    shown replaces changes k (log ++ [a]) =
      showNext replaces changes k (shown replaces changes k log) a := by
  unfold shown
  rw [List.foldl_append]
  rfl

theorem mem_of_mem_shown {replaces changes : label -> key -> Bool} {k : key}
    {log : List label} {a : label}
    (h : a ∈ shown replaces changes k log) : a ∈ log := by
  induction log using List.reverseRecOn with
  | nil => cases h
  | append_singleton log b ih =>
      rw [shown_append_singleton] at h
      unfold showNext at h
      split at h
      · exact List.mem_append_right log h
      · split at h
        · rcases List.mem_append.mp h with hlog | hlast
          · exact List.mem_append_left [b] (ih hlog)
          · exact List.mem_append_right log hlast
        · exact List.mem_append_left [b] (ih h)

theorem read_filter {write : state -> label -> state}
    {read : state -> key -> value} {replaces changes : label -> key -> Bool}
    (h : Writes write read replaces changes) {keep : label -> Bool} {k : key}
    {log : List label}
    (hkeep : forall a, a ∈ shown replaces changes k log -> keep a = true)
    (s : state) :
    read (log.foldl write s) k = read ((log.filter keep).foldl write s) k := by
  induction log using List.reverseRecOn with
  | nil => rfl
  | append_singleton log a ih =>
      rw [shown_append_singleton] at hkeep
      unfold showNext at hkeep
      rw [List.filter_append, List.foldl_append, List.foldl_append]
      cases hreplaces : replaces a k with
      | true =>
          rw [if_pos hreplaces] at hkeep
          have ha := hkeep a List.mem_cons_self
          rw [List.filter_cons_of_pos ha]
          exact h.replaced a k _ _ hreplaces
      | false =>
          rw [if_neg (Bool.eq_false_iff.mp hreplaces)] at hkeep
          cases hchanges : changes a k with
          | true =>
              rw [if_pos hchanges] at hkeep
              have hlog := ih fun b hb =>
                hkeep b (List.mem_append_left [a] hb)
              have ha := hkeep a
                (List.mem_append_right _ List.mem_cons_self)
              rw [List.filter_cons_of_pos ha]
              exact h.changed a k _ _ hchanges hlog
          | false =>
              rw [if_neg (Bool.eq_false_iff.mp hchanges)] at hkeep
              have hlog := ih hkeep
              have hother := fun s => h.other a k s hreplaces hchanges
              cases ha : keep a with
              | true =>
                  rw [List.filter_cons_of_pos ha]
                  exact (hother _).trans (hlog.trans (hother _).symm)
              | false =>
                  rw [List.filter_cons_of_neg (Bool.eq_false_iff.mp ha)]
                  exact (hother _).trans hlog

end WriteLog
end CallgentApi
