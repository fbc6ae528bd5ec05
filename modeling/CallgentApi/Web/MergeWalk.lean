import CallgentApi.Web.DeepMerge

/-!
# The walk of a merge

A value of the source meets what the target has under its key, and what is
written there does not depend on the other keys.  A merge stops where the walk
through the two states first stops.
-/

namespace CallgentApi
namespace Web

open Js Event Agents

/-! ## Writing under a key -/

namespace Container

@[simp] theorem get_set_self (c : Container) (key : Text) (v : Node) :
    (c.set key v).get key = .own v := by
  unfold get set
  simp only [lookup_setEntry_self]

theorem isSome_length_set (c : Container) (key : Text) (v : Node) :
    (c.set key v).length.isSome = c.length.isSome := by
  unfold set
  cases arrayIndex key with
  | none => rfl
  | some index => exact Option.isSome_map

theorem lookup_set_of_ne {key other : Text} (h : other ≠ key) (c : Container)
    (v : Node) : (c.set key v).fields.lookup other = c.fields.lookup other :=
  lookup_setEntry_of_ne h c.fields v

theorem get_set_of_ne {key other : Text} (h : other ≠ key) (c : Container)
    (v : Node) : (c.set key v).get other = c.get other := by
  unfold get functions
  rw [lookup_set_of_ne h, isSome_length_set]

/-- A value stands under the key, which is no index beyond the length. -/
structure Holds (c : Container) (key : Text) (v : Node) : Prop where
  lookup : c.fields.lookup key = some v
  index : forall index, arrayIndex key = some index ->
    forall n, c.length = some n -> index < n

theorem Holds.get {c : Container} {key : Text} {v : Node}
    (h : c.Holds key v) : c.get key = .own v := by
  unfold Container.get
  rw [h.lookup]

theorem Holds.set_eq {c : Container} {key : Text} {v : Node}
    (h : c.Holds key v) : c.set key v = c := by
  have hlength : (c.set key v).length = c.length := by
    unfold set
    cases hindex : arrayIndex key with
    | none => rfl
    | some index =>
        cases hlength : c.length with
        | none => rfl
        | some n =>
            have hlt := h.index index hindex n hlength
            exact congrArg some (Nat.max_eq_left hlt)
  have hfields : (c.set key v).fields = c.fields :=
    setEntry_of_lookup h.lookup
  cases c with
  | mk length fields => exact congrArg₂ Container.mk hlength hfields

theorem holds_set (c : Container) (key : Text) (v : Node) :
    (c.set key v).Holds key v where
  lookup := lookup_setEntry_self c.fields key v
  index := by
    intro index hindex n hlength
    unfold set at hlength
    rw [hindex] at hlength
    rcases Option.map_eq_some_iff.mp hlength with ⟨m, _, hmax⟩
    rw [← hmax]
    exact Nat.lt_of_lt_of_le (Nat.lt_succ_self index) (Nat.le_max_right m _)

theorem Holds.set_of_ne {c : Container} {key other : Text} {v w : Node}
    (h : c.Holds key v) (hne : key ≠ other) : (c.set other w).Holds key v where
  lookup := (lookup_set_of_ne hne c w).trans h.lookup
  index := by
    intro index hindex n hlength
    unfold set at hlength
    cases hother : arrayIndex other with
    | none =>
        rw [hother] at hlength
        exact h.index index hindex n hlength
    | some i =>
        rw [hother] at hlength
        rcases Option.map_eq_some_iff.mp hlength with ⟨m, hm, hmax⟩
        rw [← hmax]
        exact Nat.lt_of_lt_of_le (h.index index hindex m hm)
          (Nat.le_max_left m _)

end Container

/-- What is found after something was written. -/
def Found.after (found : Found) (written : Option Node) : Found :=
  match written with
  | some v => .own v
  | none => found

namespace Container

theorem get_write_self (c : Container) (key : Text) (written : Option Node) :
    (c.write key written).get key = (c.get key).after written := by
  cases written with
  | none => rfl
  | some v => exact get_set_self c key v

theorem get_write_of_ne {key other : Text} (h : other ≠ key) (c : Container)
    (written : Option Node) :
    (c.write key written).get other = c.get other := by
  cases written with
  | none => rfl
  | some v => exact get_set_of_ne h c v

theorem lookup_write_of_ne {key other : Text} (h : other ≠ key) (c : Container)
    (written : Option Node) :
    (c.write key written).fields.lookup other = c.fields.lookup other := by
  cases written with
  | none => rfl
  | some v => exact lookup_set_of_ne h c v

theorem Holds.write_of_ne {c : Container} {key other : Text} {v : Node}
    (h : c.Holds key v) (hne : key ≠ other) (written : Option Node) :
    (c.write other written).Holds key v := by
  cases written with
  | none => exact h
  | some w => exact h.set_of_ne hne

end Container

/-! ## What a merge leaves -/

theorem kept_of_deepMerge {c c' : Container} {fields : List (Text × Node)}
    (h : deepMerge c fields = .ok c') {key : Text}
    (hkey : key ∉ fields.map Prod.fst) :
    c'.get key = c.get key ∧ c'.fields.lookup key = c.fields.lookup key ∧
      forall v, c.Holds key v -> c'.Holds key v := by
  induction fields generalizing c with
  | nil =>
      cases h
      exact ⟨rfl, rfl, fun _ hv => hv⟩
  | cons entry rest ih =>
      rcases entry with ⟨other, val⟩
      rw [List.map_cons, List.mem_cons, not_or] at hkey
      rcases hkey with ⟨hne, hrest⟩
      unfold deepMerge at h
      rcases Fallible.exists_of_bind_ok h with ⟨written, _, h1⟩
      rcases ih h1 hrest with ⟨hget, hlookup, hholds⟩
      refine ⟨?_, ?_, ?_⟩
      · rw [hget]
        exact Container.get_write_of_ne hne c written
      · rw [hlookup]
        exact Container.lookup_write_of_ne hne c written
      · intro v hv
        exact hholds v (hv.write_of_ne hne written)

theorem written_of_deepMerge {c c' : Container} {fields : List (Text × Node)}
    (hnodup : (fields.map Prod.fst).Nodup) (h : deepMerge c fields = .ok c')
    {entry : Text × Node} (hentry : entry ∈ fields) :
    exists written, mergeFound (c.get entry.1) entry.2 = .ok written ∧
      c'.get entry.1 = (c.get entry.1).after written ∧
        forall v, written = some v -> c'.Holds entry.1 v := by
  induction fields generalizing c with
  | nil => cases hentry
  | cons first rest ih =>
      rcases first with ⟨key, val⟩
      rcases List.nodup_cons.mp hnodup with ⟨hkey, hrest⟩
      unfold deepMerge at h
      rcases Fallible.exists_of_bind_ok h with ⟨written, hwritten, h1⟩
      rcases List.mem_cons.mp hentry with heq | hmem
      · rw [heq]
        rcases kept_of_deepMerge h1 hkey with ⟨hget, _, hholds⟩
        refine ⟨written, hwritten, ?_, ?_⟩
        · rw [hget]
          exact Container.get_write_self c key written
        · intro v hv
          apply hholds
          rw [hv]
          exact Container.holds_set c key v
      · have hne : entry.1 ≠ key := by
          intro heq
          have hin := List.mem_map_of_mem (f := Prod.fst) hmem
          rw [heq] at hin
          exact hkey hin
        have hother := ih hrest h1 hmem
        rw [Container.get_write_of_ne hne] at hother
        exact hother

/-! ## The values that meet -/

mutual

/-- What meets where a value is merged, in the order of the walk. -/
def pairs (found : Found) : Node -> List (Found × Node)
  | .object length fields =>
      (found, .object length fields) ::
        match meeting found (.object length fields) with
        | .enterFirst _ element =>
            match fields with
            | (_, .object _ inner) :: _ => pairsOf element inner
            | _ => []
        | .enter g => pairsOf g fields
        | _ => []
  | val => [(found, val)]

def pairsOf (target : Container) : List (Text × Node) -> List (Found × Node)
  | [] => []
  | (key, val) :: rest => pairs (target.get key) val ++ pairsOf target rest

end

def Meeting.error : Meeting -> Option MergeError
  | .stop e => some e
  | _ => none

def firstStop (met : List (Found × Node)) : Option MergeError :=
  met.findSome? fun pair => (meeting pair.1 pair.2).error

mutual

/-- The value can be merged into itself: no array with `null` as its first
element is come to. -/
def Settled : Node -> Prop
  | .object none fields => SettledAll fields
  | .object (some _) ((_, .null) :: _) => False
  | .object (some _) ((_, .object _ inner) :: _) => SettledAll inner
  | _ => True

def SettledAll : List (Text × Node) -> Prop
  | [] => True
  | (_, val) :: rest => Settled val ∧ SettledAll rest

end

def SettledFirst : Node -> Prop
  | .null => False
  | .object _ inner => SettledAll inner
  | _ => True

/-- What is put into the target by a meeting can be merged into itself. -/
def Meeting.Settles (val : Node) : Meeting -> Prop
  | .assign => Settled val
  | .replaceFirst _ first => SettledFirst first
  | _ => True

/-- Merging once more goes through where these have met. -/
def Again (pair : Found × Node) : Prop :=
  (meeting pair.1 pair.2).Settles pair.2

/-! ## What a meeting can be -/

inductive MeetingSpec (found : Found) (val : Node) : Meeting -> Prop where
  | stop (e : MergeError) : MeetingSpec found val (.stop e)
  | keep : MeetingSpec found val .keep
  | assign : MeetingSpec found val .assign
  | replaceFirst (g : Container) (n : Nat) (key : Text) (first : Node)
      (rest : List (Text × Node))
      (hval : val = .object (some n) ((key, first) :: rest))
      (hfound : found = .own g.node) (hlength : g.hasLength = true) :
      MeetingSpec found val (.replaceFirst g first)
  | enterFirst (g element : Container) (n : Nat) (key : Text)
      (length : Option Nat) (inner rest : List (Text × Node))
      (hval : val = .object (some n) ((key, .object length inner) :: rest))
      (hfound : found = .own g.node) (hlength : g.hasLength = true)
      (helement : g.fields.lookup zero = some element.node) :
      MeetingSpec found val (.enterFirst g element)
  | enter (g : Container) (fields : List (Text × Node))
      (hval : val = .object none fields) (hfound : found = .own g.node) :
      MeetingSpec found val (.enter g)

theorem meeting_spec (found : Found) (val : Node) :
    MeetingSpec found val (meeting found val) := by
  unfold meeting
  split
  · exact .keep
  · split
    · exact .assign
    · rename_i g
      unfold meetOwn
      split
      · exact .assign
      · split
        · exact .keep
        · rename_i n key first rest _
          unfold meetArray
          split
          · exact .stop _
          · rename_i length fields _ _
            split
            · rename_i hlength
              split
              · rename_i length' fields' helement
                cases first with
                | object l inner =>
                    exact .enterFirst _ _ _ _ _ _ _ rfl rfl hlength helement
                | null => exact .stop _
                | bool b => exact .stop _
                | num n => exact .stop _
                | str s => exact .stop _
              · cases first with
                | object l inner =>
                    unfold meetElement
                    dsimp only
                    split
                    · exact .stop _
                    · exact .keep
                | null => exact .stop _
                | bool b => exact .stop _
                | num n => exact .stop _
                | str s => exact .stop _
              · exact .replaceFirst _ _ _ _ _ rfl rfl hlength
            · exact .assign
          · exact .assign
        · split
          · exact .enter _ _ rfl rfl
          · exact .assign
        · exact .assign
    · exact .stop _
    · exact .stop _
    · split
      · exact .keep
      · split
        · exact .stop _
        · exact .assign
      · exact .assign

theorem meeting_scalar {found : Found} {val : Node}
    (hscalar : forall length fields, val ≠ .object length fields) :
    meeting found val = .keep ∨ meeting found val = .assign ∨
      exists e, meeting found val = .stop e := by
  have hspec := meeting_spec found val
  cases hmeeting : meeting found val with
  | keep => exact Or.inl rfl
  | assign => exact Or.inr (Or.inl rfl)
  | stop e => exact Or.inr (Or.inr ⟨e, rfl⟩)
  | replaceFirst g first =>
      rw [hmeeting] at hspec
      cases hspec with
      | replaceFirst _ _ _ _ _ hval => exact absurd hval (hscalar _ _)
  | enterFirst g element =>
      rw [hmeeting] at hspec
      cases hspec with
      | enterFirst _ _ _ _ _ _ _ hval => exact absurd hval (hscalar _ _)
  | enter g =>
      rw [hmeeting] at hspec
      cases hspec with
      | enter _ _ hval => exact absurd hval (hscalar _ _)

/-! ## Why a merge stops -/

def errorOf {a : Type} : Except MergeError a -> Option MergeError
  | .error e => some e
  | .ok _ => none

theorem errorOf_bind_ok {a b : Type} (x : Except MergeError a) (f : a -> b) :
    errorOf (do let v ← x; return f v : Except MergeError b) = errorOf x := by
  cases x with
  | error e => rfl
  | ok v => rfl

theorem firstStop_append (met met' : List (Found × Node)) :
    firstStop (met ++ met') = (firstStop met).or (firstStop met') :=
  List.findSome?_append

theorem firstStop_cons (found : Found) (val : Node)
    (met : List (Found × Node)) :
    firstStop ((found, val) :: met) =
      (meeting found val).error.or (firstStop met) := by
  unfold firstStop
  rw [List.findSome?_cons]
  cases (meeting found val).error with
  | none => rfl
  | some e => rfl

mutual

/-- Every object has a key once, an array its indices. -/
def Node.Proper : Node -> Prop
  | .object length fields =>
      (match length with
        | some n =>
            fields.map Prod.fst = (List.range n).map fun i : Nat => decimal i
        | none => (fields.map Prod.fst).Nodup) ∧
        AllProper fields
  | _ => True

def AllProper : List (Text × Node) -> Prop
  | [] => True
  | (_, val) :: rest => val.Proper ∧ AllProper rest

end

theorem decimal_injective {m n : Nat} (h : decimal m = decimal n) : m = n := by
  have hm := parseDigits_toDigits m
  rw [← decimal_ofNat] at hm
  have hn := parseDigits_toDigits n
  rw [← decimal_ofNat] at hn
  have hsome : some m = some n :=
    hm.symm.trans ((congrArg parseDigits h).trans hn)
  exact Option.some.inj hsome

theorem Node.Proper.nodup {length : Option Nat} {fields : List (Text × Node)}
    (h : (Node.object length fields).Proper) :
    (fields.map Prod.fst).Nodup := by
  unfold Node.Proper at h
  rcases h with ⟨hkeys, _⟩
  cases length with
  | none => exact hkeys
  | some n =>
      rw [hkeys]
      exact List.Nodup.map (fun _ _ => decimal_injective) List.nodup_range

theorem Node.Proper.all {length : Option Nat} {fields : List (Text × Node)}
    (h : (Node.object length fields).Proper) : AllProper fields := by
  unfold Node.Proper at h
  exact h.right

theorem AllProper.first {key : Text} {length : Option Nat}
    {inner rest : List (Text × Node)}
    (h : AllProper ((key, .object length inner) :: rest)) :
    (Node.object length inner).Proper := by
  unfold AllProper at h
  exact h.left

theorem pairsOf_congr {c c' : Container} {fields : List (Text × Node)}
    (h : forall entry, entry ∈ fields -> c.get entry.1 = c'.get entry.1) :
    pairsOf c fields = pairsOf c' fields := by
  induction fields with
  | nil => rfl
  | cons entry rest ih =>
      rcases entry with ⟨key, val⟩
      rw [List.forall_mem_cons] at h
      rcases h with ⟨hentry, hrest⟩
      have hget : c.get key = c'.get key := hentry
      unfold pairsOf
      rw [hget, ih hrest]

theorem pairsOf_write {c : Container} {key : Text}
    {fields : List (Text × Node)} (hkey : key ∉ fields.map Prod.fst)
    (written : Option Node) :
    pairsOf (c.write key written) fields = pairsOf c fields := by
  apply pairsOf_congr
  intro entry hentry
  apply Container.get_write_of_ne
  intro heq
  have hin := List.mem_map_of_mem (f := Prod.fst) hentry
  rw [heq] at hin
  exact hkey hin

theorem errorOf_scalar {found : Found} {val : Node}
    (hfound : mergeFound found val = match meeting found val with
      | .stop e => .error e
      | .assign => .ok (some val)
      | _ => .ok none)
    (hpairs : pairs found val = [(found, val)]) :
    errorOf (mergeFound found val) = firstStop (pairs found val) := by
  rw [hfound, hpairs, firstStop_cons]
  cases meeting found val with
  | stop e => rfl
  | keep => rfl
  | assign => rfl
  | replaceFirst g first => rfl
  | enterFirst g element => rfl
  | enter g => rfl

mutual

theorem errorOf_mergeFound (found : Found) (val : Node)
    (hproper : val.Proper) :
    errorOf (mergeFound found val) = firstStop (pairs found val) := by
  match val with
  | .object length fields =>
      unfold mergeFound pairs
      rw [firstStop_cons]
      cases meeting found (.object length fields) with
      | stop e => rfl
      | keep => rfl
      | assign => rfl
      | replaceFirst g first => rfl
      | enterFirst g element =>
          match fields with
          | (_, .object _ inner) :: _ =>
              dsimp only
              rw [errorOf_bind_ok]
              have hinner := hproper.all.first
              exact errorOf_deepMerge element inner hinner.nodup hinner.all
          | [] => rfl
          | (_, .null) :: _ => rfl
          | (_, .bool _) :: _ => rfl
          | (_, .num _) :: _ => rfl
          | (_, .str _) :: _ => rfl
      | enter g =>
          dsimp only
          rw [errorOf_bind_ok]
          exact errorOf_deepMerge g fields hproper.nodup hproper.all
  | .null => exact errorOf_scalar rfl rfl
  | .bool _ => exact errorOf_scalar rfl rfl
  | .num _ => exact errorOf_scalar rfl rfl
  | .str _ => exact errorOf_scalar rfl rfl

theorem errorOf_deepMerge (target : Container) (fields : List (Text × Node))
    (hnodup : (fields.map Prod.fst).Nodup) (hall : AllProper fields) :
    errorOf (deepMerge target fields) = firstStop (pairsOf target fields) := by
  match fields with
  | [] => rfl
  | (key, val) :: rest =>
      rcases List.nodup_cons.mp hnodup with ⟨hkey, hrest⟩
      rcases hall with ⟨hval, hothers⟩
      have hfirst := errorOf_mergeFound (target.get key) val hval
      unfold deepMerge pairsOf
      rw [firstStop_append, ← hfirst]
      cases mergeFound (target.get key) val with
      | error e => rfl
      | ok written =>
          have hlast := errorOf_deepMerge (target.write key written) rest
            hrest hothers
          rw [pairsOf_write hkey] at hlast
          exact hlast

end

end Web
end CallgentApi
