import CallgentApi.Web.MergeWalk

/-!
# States that merge well

A merge into what a merge has left goes through when everything that was put
into the target can be merged into itself.
-/

namespace CallgentApi
namespace Web

open Js Event Agents

/-! ## Merging into what was merged -/

/-- A value is merged where its merge has written: this goes through when `p`
holds, and writes nothing else. -/
def Repeats (x : Except MergeError (Option Node)) (written : Option Node)
    (p : Prop) : Prop :=
  (p ∧ (x = .ok none ∨ x = .ok written)) ∨ (¬p ∧ exists e, x = .error e)

def RepeatsAll (x : Except MergeError Container) (c : Container) (p : Prop) :
    Prop :=
  (p ∧ x = .ok c) ∨ (¬p ∧ exists e, x = .error e)

theorem RepeatsAll.map {x : Except MergeError Container} {c : Container}
    {p : Prop} (h : RepeatsAll x c p) (f : Container -> Node) :
    Repeats (do let merged ← x; return some (f merged)) (some (f c)) p := by
  rcases h with ⟨hp, hx⟩ | ⟨hp, e, hx⟩
  · rw [hx]
    exact Or.inl ⟨hp, Or.inr rfl⟩
  · rw [hx]
    exact Or.inr ⟨hp, e, rfl⟩

theorem repeatsAll_cons {c : Container} {key : Text} {val : Node}
    {written : Option Node} {rest : List (Text × Node)} {p q : Prop}
    (hholds : forall v, written = some v -> c.Holds key v)
    (hval : Repeats (mergeFound (c.get key) val) written p)
    (hrest : RepeatsAll (deepMerge c rest) c q) :
    RepeatsAll (deepMerge c ((key, val) :: rest)) c (p ∧ q) := by
  unfold deepMerge
  rcases hval with ⟨hp, hx⟩ | ⟨hp, e, hx⟩
  · have hstep : (mergeFound (c.get key) val >>= fun written =>
        deepMerge (c.write key written) rest) = deepMerge c rest := by
      rcases hx with hx | hx
      · rw [hx]
        rfl
      · rw [hx]
        cases written with
        | none => rfl
        | some v =>
            show deepMerge (c.set key v) rest = deepMerge c rest
            rw [(hholds v rfl).set_eq]
    rw [hstep]
    rcases hrest with ⟨hq, hok⟩ | ⟨hq, e, herror⟩
    · exact Or.inl ⟨⟨hp, hq⟩, hok⟩
    · exact Or.inr ⟨fun h => hq h.right, e, herror⟩
  · rw [hx]
    exact Or.inr ⟨fun h => hp h.left, e, rfl⟩

theorem Repeats.congr {x : Except MergeError (Option Node)}
    {written : Option Node} {p q : Prop} (h : Repeats x written p)
    (hiff : p <-> q) : Repeats x written q :=
  propext hiff ▸ h

theorem meeting_first {g : Container} (hlength : g.hasLength = true) (n : Nat)
    (key : Text) (first : Node) (rest : List (Text × Node)) :
    meeting (.own g.node) (.object (some n) ((key, first) :: rest)) =
      match g.fields.lookup zero with
      | some (.object length fields) =>
          meetElement g (.object length fields) first
      | some .null => meetElement g .null first
      | _ => .replaceFirst g first := by
  unfold meeting meetOwn meetArray Container.node
  exact if_pos hlength

theorem repeats_first {g : Container} {first : Node}
    (hlength : g.hasLength = true) (hholds : g.Holds zero first)
    (hself : forall length inner, first = .object length inner ->
      RepeatsAll (deepMerge ⟨length, inner⟩ inner) ⟨length, inner⟩
        (SettledAll inner))
    (n : Nat) (key : Text) (rest : List (Text × Node)) :
    Repeats (mergeFound (.own g.node) (.object (some n) ((key, first) :: rest)))
      (some g.node) (SettledFirst first) := by
  have hmeeting := meeting_first hlength n key first rest
  rw [hholds.lookup] at hmeeting
  unfold mergeFound
  rw [hmeeting]
  cases first with
  | null => exact Or.inr ⟨id, noEntries, rfl⟩
  | bool b =>
      refine Or.inl ⟨True.intro, Or.inr ?_⟩
      show Except.ok (some (g.set zero (.bool b)).node) = _
      rw [hholds.set_eq]
  | num m =>
      refine Or.inl ⟨True.intro, Or.inr ?_⟩
      show Except.ok (some (g.set zero (.num m)).node) = _
      rw [hholds.set_eq]
  | str s =>
      refine Or.inl ⟨True.intro, Or.inr ?_⟩
      show Except.ok (some (g.set zero (.str s)).node) = _
      rw [hholds.set_eq]
  | object length inner =>
      have hmap := (hself length inner rfl).map fun merged =>
        (g.set zero merged.node).node
      have hset : g.set zero (Container.mk length inner).node = g :=
        hholds.set_eq
      rw [hset] at hmap
      exact hmap

theorem holds_of_proper {length : Option Nat} {fields : List (Text × Node)}
    (h : (Node.object length fields).Proper) {entry : Text × Node}
    (hentry : entry ∈ fields) :
    (Container.mk length fields).Holds entry.1 entry.2 where
  lookup := (lookup_iff_mem h.nodup).mpr hentry
  index := by
    intro index hindex n hlength
    have hlength' : length = some n := hlength
    have hkeys : fields.map Prod.fst =
        (List.range n).map fun i : Nat => decimal i := by
      unfold Node.Proper at h
      rw [hlength'] at h
      exact h.left
    have hkey : entry.1 ∈ (List.range n).map fun i : Nat => decimal i := by
      rw [← hkeys]
      exact List.mem_map_of_mem hentry
    rcases List.mem_map.mp hkey with ⟨i, hi, hdecimal⟩
    unfold arrayIndex at hindex
    rcases Option.filter_eq_some_iff.mp hindex with ⟨_, hread⟩
    rw [Bool.and_eq_true, beq_iff_eq] at hread
    have heq : i = index := decimal_injective (hdecimal.trans hread.left.symm)
    rw [← heq]
    exact List.mem_range.mp hi

theorem hasLength_of_proper {n : Nat} {key : Text} {first : Node}
    {rest : List (Text × Node)}
    (h : (Node.object (some n) ((key, first) :: rest)).Proper) :
    (Container.mk (some n) ((key, first) :: rest)).hasLength = true ∧
      key = zero := by
  have hkeys : ((key, first) :: rest).map Prod.fst =
      (List.range n).map fun i : Nat => decimal i := by
    unfold Node.Proper at h
    exact h.left
  cases n with
  | zero => cases hkeys
  | succ n =>
      rw [List.range_succ_eq_map] at hkeys
      exact ⟨rfl, (List.cons.inj hkeys).left⟩

theorem settled_iff_first {n : Nat} {key : Text} {first : Node}
    {rest : List (Text × Node)} :
    Settled (.object (some n) ((key, first) :: rest)) <->
      SettledFirst first := by
  cases first with
  | null => exact Iff.rfl
  | bool b => exact Iff.rfl
  | num m => exact Iff.rfl
  | str s => exact Iff.rfl
  | object length inner => exact Iff.rfl

theorem self_array {n : Nat} {key : Text} {first : Node}
    {rest : List (Text × Node)}
    (hproper : (Node.object (some n) ((key, first) :: rest)).Proper)
    (hself : forall length inner, first = .object length inner ->
      RepeatsAll (deepMerge ⟨length, inner⟩ inner) ⟨length, inner⟩
        (SettledAll inner)) :
    Repeats
      (mergeFound (.own (.object (some n) ((key, first) :: rest)))
        (.object (some n) ((key, first) :: rest)))
      (some (.object (some n) ((key, first) :: rest)))
      (Settled (.object (some n) ((key, first) :: rest))) := by
  rcases hasLength_of_proper hproper with ⟨hlength, hkey⟩
  have hholds := holds_of_proper hproper List.mem_cons_self
  have hzero :
      (Container.mk (some n) ((key, first) :: rest)).Holds zero first :=
    hkey ▸ hholds
  exact (repeats_first hlength hzero hself n key rest).congr
    settled_iff_first.symm

theorem self_number (n : JsonNumber) :
    mergeFound (.own (.num n)) (.num n) = .ok none ∨
      mergeFound (.own (.num n)) (.num n) = .ok (some (.num n)) := by
  unfold mergeFound meeting
  dsimp only
  unfold meetOwn
  cases (Node.num n).truthy with
  | false => exact Or.inl rfl
  | true => exact Or.inr rfl

mutual

theorem self_value (val : Node) (hproper : val.Proper) :
    Repeats (mergeFound (.own val) val) (some val) (Settled val) := by
  match val with
  | .null => exact Or.inl ⟨True.intro, Or.inl rfl⟩
  | .bool true => exact Or.inl ⟨True.intro, Or.inr rfl⟩
  | .bool false => exact Or.inl ⟨True.intro, Or.inl rfl⟩
  | .num n => exact Or.inl ⟨True.intro, self_number n⟩
  | .str [] => exact Or.inl ⟨True.intro, Or.inl rfl⟩
  | .str (_ :: _) => exact Or.inl ⟨True.intro, Or.inr rfl⟩
  | .object none fields =>
      have hfields := self_fields ⟨none, fields⟩ fields hproper.all
        fun entry hentry => holds_of_proper hproper hentry
      exact hfields.map Container.node
  | .object (some n) [] => exact Or.inl ⟨True.intro, Or.inl rfl⟩
  | .object (some n) ((key, .object length inner) :: rest) =>
      have hfirst := hproper.all.first
      have hinner := self_fields ⟨length, inner⟩ inner hfirst.all
        fun entry hentry => holds_of_proper hfirst hentry
      apply self_array hproper
      intro length' inner' heq
      cases heq
      exact hinner
  | .object (some n) ((key, .null) :: rest) =>
      exact self_array hproper fun _ _ h => nomatch h
  | .object (some n) ((key, .bool b) :: rest) =>
      exact self_array hproper fun _ _ h => nomatch h
  | .object (some n) ((key, .num m) :: rest) =>
      exact self_array hproper fun _ _ h => nomatch h
  | .object (some n) ((key, .str s) :: rest) =>
      exact self_array hproper fun _ _ h => nomatch h

theorem self_fields (c : Container) (fields : List (Text × Node))
    (hall : AllProper fields)
    (hholds : forall entry, entry ∈ fields -> c.Holds entry.1 entry.2) :
    RepeatsAll (deepMerge c fields) c (SettledAll fields) := by
  match fields with
  | [] => exact Or.inl ⟨True.intro, rfl⟩
  | (key, val) :: rest =>
      rcases hall with ⟨hval, hothers⟩
      rcases List.forall_mem_cons.mp hholds with ⟨hfirst, hrest⟩
      have hself := self_value val hval
      have hget : c.get key = .own val := hfirst.get
      rw [← hget] at hself
      exact repeatsAll_cons (fun v h => Option.some.inj h ▸ hfirst) hself
        (self_fields c rest hothers hrest)

end

/-! ## Merging the same source again -/

theorem forall_mem_cons_pair {found : Found} {val : Node}
    {met : List (Found × Node)} :
    (forall pair, pair ∈ (found, val) :: met -> Again pair) <->
      Again (found, val) ∧ forall pair, pair ∈ met -> Again pair :=
  List.forall_mem_cons

theorem hasLength_set_zero {g : Container} (h : g.hasLength = true)
    (v : Node) : (g.set zero v).hasLength = true := by
  have hzero : arrayIndex zero = some 0 := by decide
  have hne : "length".toList ≠ zero := by decide
  unfold Container.hasLength at h ⊢
  have hlength : (g.set zero v).length = g.length.map fun n => max n 1 := by
    unfold Container.set
    rw [hzero]
  rw [hlength, Container.lookup_set_of_ne hne]
  cases hg : g.length with
  | none =>
      rw [hg] at h
      exact h
  | some n =>
      show (max n 1 != 0) = true
      rw [bne_iff_ne]
      exact Nat.ne_of_gt (Nat.lt_of_lt_of_le Nat.zero_lt_one
        (Nat.le_max_right n 1))

theorem again_of_meeting {found : Found} {val : Node} {m : Meeting}
    (h : meeting found val = m) : Again (found, val) <-> m.Settles val :=
  h ▸ Iff.rfl

theorem repeatsAll_of_each {c c' : Container} {fields : List (Text × Node)}
    (h : forall entry, entry ∈ fields -> exists written,
      (forall v, written = some v -> c'.Holds entry.1 v) ∧
        Repeats (mergeFound (c'.get entry.1) entry.2) written
          (forall pair, pair ∈ pairs (c.get entry.1) entry.2 -> Again pair)) :
    RepeatsAll (deepMerge c' fields) c'
      (forall pair, pair ∈ pairsOf c fields -> Again pair) := by
  induction fields with
  | nil => exact Or.inl ⟨fun _ h => (nomatch h), rfl⟩
  | cons entry rest ih =>
      rcases entry with ⟨key, val⟩
      rcases List.forall_mem_cons.mp h with ⟨hfirst, hrest⟩
      rcases hfirst with ⟨written, hholds, hval⟩
      have hboth := repeatsAll_cons hholds hval (ih hrest)
      unfold pairsOf
      rw [← List.forall_mem_append] at hboth
      exact hboth

def AgainAt (found : Found) (val : Node) : Prop :=
  forall written, mergeFound found val = .ok written ->
    Repeats (mergeFound (found.after written) val) written
      (forall pair, pair ∈ pairs found val -> Again pair)

theorem again_of_each {c c' : Container} {fields : List (Text × Node)}
    (hnodup : (fields.map Prod.fst).Nodup)
    (heach : forall entry, entry ∈ fields -> AgainAt (c.get entry.1) entry.2)
    (h : deepMerge c fields = .ok c') :
    RepeatsAll (deepMerge c' fields) c'
      (forall pair, pair ∈ pairsOf c fields -> Again pair) := by
  apply repeatsAll_of_each
  intro entry hentry
  rcases written_of_deepMerge hnodup h hentry with
    ⟨written, hwritten, hget, hholds⟩
  rw [hget]
  exact ⟨written, hholds, heach entry hentry written hwritten⟩

theorem again_keep {found : Found} {val : Node}
    (hmeeting : meeting found val = .keep)
    (hmerge : mergeFound found val = .ok none)
    (hpairs : pairs found val = [(found, val)]) : AgainAt found val := by
  intro written h
  have hnone : none = written := Except.ok.inj (hmerge.symm.trans h)
  rw [← hnone]
  refine Or.inl ⟨?_, Or.inl hmerge⟩
  rw [hpairs, List.forall_mem_singleton, again_of_meeting hmeeting]
  exact True.intro

theorem again_assign {found : Found} {val : Node} (hproper : val.Proper)
    (hmeeting : meeting found val = .assign)
    (hmerge : mergeFound found val = .ok (some val))
    (hpairs : pairs found val = [(found, val)]) : AgainAt found val := by
  intro written h
  have hsome : some val = written := Except.ok.inj (hmerge.symm.trans h)
  rw [← hsome, hpairs, List.forall_mem_singleton, again_of_meeting hmeeting]
  exact self_value val hproper

theorem again_scalar {found : Found} {val : Node} (hproper : val.Proper)
    (hscalar : forall length fields, val ≠ .object length fields)
    (hmerge : mergeFound found val = match meeting found val with
      | .stop e => .error e
      | .assign => .ok (some val)
      | _ => .ok none)
    (hpairs : pairs found val = [(found, val)]) : AgainAt found val := by
  rcases meeting_scalar hscalar with hmeeting | hmeeting | ⟨e, hmeeting⟩
  · rw [hmeeting] at hmerge
    exact again_keep hmeeting hmerge hpairs
  · rw [hmeeting] at hmerge
    exact again_assign hproper hmeeting hmerge hpairs
  · intro written h
    rw [hmerge, hmeeting] at h
    cases h

theorem again_replaceFirst {found : Found} {g : Container} {n : Nat}
    {key : Text} {first : Node} {rest : List (Text × Node)}
    (hproper : (Node.object (some n) ((key, first) :: rest)).Proper)
    (hlength : g.hasLength = true)
    (hmeeting : meeting found (.object (some n) ((key, first) :: rest)) =
      .replaceFirst g first) :
    AgainAt found (.object (some n) ((key, first) :: rest)) := by
  intro written h
  unfold mergeFound at h
  rw [hmeeting] at h
  cases h
  have hself : forall length inner, first = .object length inner ->
      RepeatsAll (deepMerge ⟨length, inner⟩ inner) ⟨length, inner⟩
        (SettledAll inner) := by
    intro length inner heq
    rw [heq] at hproper
    have hfirst := hproper.all.first
    exact self_fields ⟨length, inner⟩ inner hfirst.all
      fun entry hentry => holds_of_proper hfirst hentry
  have hrepeats := repeats_first (hasLength_set_zero hlength first)
    (Container.holds_set g zero first) hself n key rest
  apply hrepeats.congr
  unfold pairs
  rw [hmeeting, List.forall_mem_singleton, again_of_meeting hmeeting]
  exact Iff.rfl

/-- What a merge of properties that goes through says of merging them again. -/
def AgainOf (target : Container) (fields : List (Text × Node)) : Prop :=
  forall merged, deepMerge target fields = .ok merged ->
    RepeatsAll (deepMerge merged fields) merged
      (forall pair, pair ∈ pairsOf target fields -> Again pair)

theorem again_enterFirst {found : Found} {g element : Container} {n : Nat}
    {key : Text} {length : Option Nat} {inner rest : List (Text × Node)}
    (hlength : g.hasLength = true) (hinner : AgainOf element inner)
    (hmeeting : meeting found
      (.object (some n) ((key, .object length inner) :: rest)) =
        .enterFirst g element) :
    AgainAt found (.object (some n) ((key, .object length inner) :: rest)) := by
  intro written h
  unfold mergeFound at h
  rw [hmeeting] at h
  rcases Fallible.exists_of_bind_ok h with ⟨merged, hmerged, h1⟩
  cases h1
  have hmap := (hinner merged hmerged).map fun again =>
    ((g.set zero merged.node).set zero again.node).node
  have hholds := Container.holds_set g zero merged.node
  have hagain : meeting (.own (g.set zero merged.node).node)
      (.object (some n) ((key, .object length inner) :: rest)) =
        .enterFirst (g.set zero merged.node) merged := by
    rw [meeting_first (hasLength_set_zero hlength merged.node),
      hholds.lookup]
    rfl
  rw [hholds.set_eq] at hmap
  show Repeats (mergeFound (.own (g.set zero merged.node).node) _) _ _
  unfold mergeFound pairs
  rw [hagain, hmeeting, forall_mem_cons_pair, again_of_meeting hmeeting]
  exact hmap.congr (and_iff_right True.intro).symm

theorem again_enter {found : Found} {g : Container}
    {fields : List (Text × Node)} (hfields : AgainOf g fields)
    (hmeeting : meeting found (.object none fields) = .enter g) :
    AgainAt found (.object none fields) := by
  intro written h
  unfold mergeFound at h
  rw [hmeeting] at h
  rcases Fallible.exists_of_bind_ok h with ⟨merged, hmerged, h1⟩
  cases h1
  have hmap := (hfields merged hmerged).map Container.node
  show Repeats (mergeFound (.own merged.node) _) _ _
  unfold mergeFound pairs
  rw [hmeeting, forall_mem_cons_pair, again_of_meeting hmeeting]
  exact hmap.congr (and_iff_right True.intro).symm

mutual

theorem again_value (found : Found) (val : Node) (hproper : val.Proper) :
    AgainAt found val := by
  match val with
  | .null => exact again_scalar True.intro (fun _ _ h => nomatch h) rfl rfl
  | .bool b => exact again_scalar True.intro (fun _ _ h => nomatch h) rfl rfl
  | .num n => exact again_scalar True.intro (fun _ _ h => nomatch h) rfl rfl
  | .str s => exact again_scalar True.intro (fun _ _ h => nomatch h) rfl rfl
  | .object length fields =>
      have hspec := meeting_spec found (.object length fields)
      cases hmeeting : meeting found (.object length fields) with
      | stop e =>
          intro written h
          unfold mergeFound at h
          rw [hmeeting] at h
          cases h
      | keep =>
          apply again_keep hmeeting
          · unfold mergeFound
            rw [hmeeting]
          · unfold pairs
            rw [hmeeting]
      | assign =>
          apply again_assign hproper hmeeting
          · unfold mergeFound
            rw [hmeeting]
          · unfold pairs
            rw [hmeeting]
      | replaceFirst g first =>
          rw [hmeeting] at hspec
          cases hspec with
          | replaceFirst _ n key _ rest hval _ hlength =>
              cases hval
              exact again_replaceFirst hproper hlength hmeeting
      | enterFirst g element =>
          rw [hmeeting] at hspec
          match fields with
          | (key, .object length' inner) :: rest =>
              have hfirst := hproper.all.first
              cases hspec with
              | enterFirst _ _ n _ _ _ _ hval _ hlength =>
                  cases hval
                  apply again_enterFirst hlength _ hmeeting
                  intro merged hmerged
                  exact again_of_each hfirst.nodup
                    (fun entry hentry =>
                      again_each element inner hfirst.all hentry) hmerged
          | [] => nomatch hspec
          | (_, .null) :: _ => nomatch hspec
          | (_, .bool _) :: _ => nomatch hspec
          | (_, .num _) :: _ => nomatch hspec
          | (_, .str _) :: _ => nomatch hspec
      | enter g =>
          rw [hmeeting] at hspec
          have hlength : length = none := by
            cases hspec with
            | enter _ _ hval => exact (Node.object.inj hval).left
          rw [hlength] at hmeeting ⊢
          apply again_enter _ hmeeting
          intro merged hmerged
          exact again_of_each hproper.nodup
            (fun entry hentry => again_each g fields hproper.all hentry) hmerged

theorem again_each (c : Container) (fields : List (Text × Node))
    (hall : AllProper fields) {entry : Text × Node} (hentry : entry ∈ fields) :
    AgainAt (c.get entry.1) entry.2 := by
  match fields with
  | (key, val) :: rest =>
      rcases hall with ⟨hval, hothers⟩
      rcases List.mem_cons.mp hentry with heq | hmem
      · rw [heq]
        exact again_value (c.get key) val hval
      · exact again_each c rest hothers hmem

end

/-! ## The states that are merged -/

mutual

def KeysOnce : Json -> Prop
  | .obj fields => (fields.map Prod.fst).Nodup ∧ FieldsKeysOnce fields
  | .arr items => ItemsKeysOnce items
  | _ => True

def FieldsKeysOnce : List (Text × Json) -> Prop
  | [] => True
  | (_, value) :: rest => KeysOnce value ∧ FieldsKeysOnce rest

def ItemsKeysOnce : List Json -> Prop
  | [] => True
  | item :: rest => KeysOnce item ∧ ItemsKeysOnce rest

end

structure StateObject where
  fields : List (Text × Json)
  keysOnce : KeysOnce (.obj fields)

def StateObject.container (state : StateObject) : Container where
  length := none
  fields := Node.ofFields state.fields

theorem keys_ofFields (fields : List (Text × Json)) :
    (Node.ofFields fields).map Prod.fst = fields.map Prod.fst := by
  induction fields with
  | nil => rfl
  | cons field rest ih => exact congrArg (field.1 :: ·) ih

theorem keys_ofItems (index : Nat) (items : List Json) :
    (Node.ofItems index items).map Prod.fst =
      (List.range' index items.length).map fun i : Nat => decimal i := by
  induction items generalizing index with
  | nil => rfl
  | cons item rest ih => exact congrArg (decimal index :: ·) (ih (index + 1))

mutual

theorem proper_ofJson (v : Json) (h : KeysOnce v) : (Node.ofJson v).Proper := by
  match v with
  | .null => exact True.intro
  | .bool _ => exact True.intro
  | .num _ => exact True.intro
  | .str _ => exact True.intro
  | .arr items =>
      have hkeys := keys_ofItems 0 items
      rw [← List.range_eq_range'] at hkeys
      exact ⟨hkeys, proper_ofItems 0 items h⟩
  | .obj fields =>
      have hkeys := h.left
      rw [← keys_ofFields] at hkeys
      exact ⟨hkeys, proper_ofFields fields h.right⟩

theorem proper_ofFields (fields : List (Text × Json))
    (h : FieldsKeysOnce fields) : AllProper (Node.ofFields fields) := by
  match fields with
  | [] => exact True.intro
  | (_, value) :: rest =>
      exact ⟨proper_ofJson value h.left, proper_ofFields rest h.right⟩

theorem proper_ofItems (index : Nat) (items : List Json)
    (h : ItemsKeysOnce items) : AllProper (Node.ofItems index items) := by
  match items with
  | [] => exact True.intro
  | item :: rest =>
      exact ⟨proper_ofJson item h.left,
        proper_ofItems (index + 1) rest h.right⟩

end

section States

variable (target source : StateObject)

def merge : Except MergeError Container :=
  deepMerge target.container source.container.fields

/-- The merge throws the declared error, or leaves every truthy value of the
source with its type and the other keys as they are, and a second one changes
nothing. -/
def MergesWell : Prop :=
  (exists src element, merge target source = .error (.conflict src element)) ∨
    exists merged, merge target source = .ok merged ∧
      (forall entry, entry ∈ source.container.fields ->
        entry.2.truthy = true ->
          exists v, merged.fields.lookup entry.1 = some v ∧
            v.kind = entry.2.kind) ∧
      (forall key, key ∉ source.fields.map Prod.fst ->
        merged.fields.lookup key = target.container.fields.lookup key) ∧
      deepMerge merged source.container.fields = .ok merged

/-- All that meets in the walk through the two states. -/
def met : List (Found × Node) :=
  pairsOf target.container source.container.fields

def StaysInside : Prop :=
  firstStop (met target source) ≠ some .outside

end States

def Meeting.KeepsKind (found : Found) (val : Node) : Meeting -> Prop
  | .keep =>
      val.truthy = true -> exists g, found = .own g ∧ g.kind = val.kind
  | .replaceFirst g _ => g.length.isSome
  | .enterFirst g _ => g.length.isSome
  | .enter g => g.length.isSome = false
  | _ => True

/-- The walk stops at a type conflict, or it goes through, what it puts into the
target can be merged into itself, and no value of the target is kept that has
another type than that of the source. -/
def Agrees (target source : StateObject) : Prop :=
  (exists src element,
    firstStop (met target source) = some (.conflict src element)) ∨
  (firstStop (met target source) = none ∧
    (forall pair, pair ∈ met target source -> Again pair) ∧
    forall entry, entry ∈ source.container.fields ->
      (meeting (target.container.get entry.1) entry.2).KeepsKind
        (target.container.get entry.1) entry.2)

theorem kind_eq_array {c : Container} :
    c.node.kind = .array <-> c.length.isSome = true := by
  unfold Container.node
  cases c.length with
  | none =>
      constructor
      · intro h
        cases h
      · intro h
        cases h
  | some n => exact iff_of_true rfl rfl

theorem kind_eq_object {c : Container} :
    c.node.kind = .object <-> c.length.isSome = false := by
  unfold Container.node
  cases c.length with
  | none => exact iff_of_true rfl rfl
  | some n =>
      constructor
      · intro h
        cases h
      · intro h
        cases h

theorem isSome_length_deepMerge {c c' : Container}
    {fields : List (Text × Node)} (h : deepMerge c fields = .ok c') :
    c'.length.isSome = c.length.isSome := by
  induction fields generalizing c with
  | nil =>
      cases h
      rfl
  | cons entry rest ih =>
      rcases entry with ⟨key, val⟩
      unfold deepMerge at h
      rcases Fallible.exists_of_bind_ok h with ⟨written, _, h1⟩
      rw [ih h1]
      cases written with
      | none => rfl
      | some v => exact Container.isSome_length_set c key v

theorem lookup_iff_get {c : Container} {key : Text} {v : Node} :
    c.fields.lookup key = some v <-> c.get key = .own v := by
  unfold Container.get
  cases c.fields.lookup key with
  | some w =>
      constructor
      · intro h
        rw [Option.some.inj h]
      · intro h
        rw [Found.own.inj h]
  | none =>
      apply iff_of_false
      · exact fun h => nomatch h
      · dsimp only
        split
        · exact fun h => nomatch h
        · split
          · exact fun h => nomatch h
          · split
            · exact fun h => nomatch h
            · exact fun h => nomatch h

def Meeting.Writes (val : Node) (written : Option Node) : Meeting -> Prop
  | .stop _ => False
  | .keep => written = none
  | .assign => written = some val
  | .replaceFirst g first => written = some (g.set zero first).node
  | .enterFirst g _ =>
      exists merged : Container, written = some (g.set zero merged.node).node
  | .enter g =>
      exists merged : Container, merged.length.isSome = g.length.isSome ∧
        written = some merged.node

theorem writes_of_mergeFound {found : Found} {val : Node}
    {written : Option Node} (h : mergeFound found val = .ok written) :
    (meeting found val).Writes val written := by
  have hscalar : (match meeting found val with
      | .stop e => .error e
      | .assign => .ok (some val)
      | _ => .ok none) = Except.ok (ε := MergeError) written ->
      (forall length fields, val ≠ .object length fields) ->
        (meeting found val).Writes val written := by
    intro h hscalar
    rcases meeting_scalar hscalar with hmeeting | hmeeting | ⟨e, hmeeting⟩
    · rw [hmeeting] at h ⊢
      exact (Except.ok.inj h).symm
    · rw [hmeeting] at h ⊢
      exact (Except.ok.inj h).symm
    · rw [hmeeting] at h
      cases h
  cases val with
  | null => exact hscalar h fun _ _ h => nomatch h
  | bool b => exact hscalar h fun _ _ h => nomatch h
  | num n => exact hscalar h fun _ _ h => nomatch h
  | str s => exact hscalar h fun _ _ h => nomatch h
  | object length fields =>
      unfold mergeFound at h
      have hspec := meeting_spec found (.object length fields)
      cases hmeeting : meeting found (.object length fields) with
      | stop e =>
          rw [hmeeting] at h
          cases h
      | keep =>
          rw [hmeeting] at h
          cases h
          rfl
      | assign =>
          rw [hmeeting] at h
          cases h
          rfl
      | replaceFirst g first =>
          rw [hmeeting] at h
          cases h
          rfl
      | enterFirst g element =>
          rw [hmeeting] at h hspec
          cases hspec with
          | enterFirst _ _ n _ _ _ _ hval =>
              cases hval
              rcases Fallible.exists_of_bind_ok h with ⟨merged, _, h1⟩
              cases h1
              exact ⟨merged, rfl⟩
      | enter g =>
          rw [hmeeting] at h
          rcases Fallible.exists_of_bind_ok h with ⟨merged, hmerged, h1⟩
          cases h1
          exact ⟨merged, isSome_length_deepMerge hmerged, rfl⟩

theorem keepsKind_iff {found : Found} {val : Node} {written : Option Node}
    (h : mergeFound found val = .ok written) (htruthy : val.truthy = true) :
    (meeting found val).KeepsKind found val <->
      exists v, found.after written = .own v ∧ v.kind = val.kind := by
  have hwrites := writes_of_mergeFound h
  have hspec := meeting_spec found val
  have hnode : forall c : Container, (exists v, Found.own c.node = .own v ∧
      v.kind = val.kind) <-> c.node.kind = val.kind := by
    intro c
    constructor
    · intro hv
      rcases hv with ⟨v, heq, hkind⟩
      rw [Found.own.inj heq]
      exact hkind
    · intro hkind
      exact ⟨c.node, rfl, hkind⟩
  cases hmeeting : meeting found val with
  | stop e =>
      rw [hmeeting] at hwrites
      exact absurd hwrites id
  | keep =>
      rw [hmeeting] at hwrites
      have hnone : written = none := hwrites
      rw [hnone]
      exact ⟨fun hkeeps => hkeeps htruthy, fun hv _ => hv⟩
  | assign =>
      rw [hmeeting] at hwrites
      have hsome : written = some val := hwrites
      rw [hsome]
      exact iff_of_true True.intro ⟨val, rfl, rfl⟩
  | replaceFirst g first =>
      rw [hmeeting] at hwrites hspec
      have hsome : written = some (g.set zero first).node := hwrites
      cases hspec with
      | replaceFirst _ n key _ rest hval =>
          have hiff := hnode (g.set zero first)
          rw [hval] at hiff ⊢
          rw [hsome]
          rw [show (Node.object (some n) ((key, first) :: rest)).kind = .array
            from rfl, kind_eq_array, Container.isSome_length_set] at hiff
          exact hiff.symm
  | enterFirst g element =>
      rw [hmeeting] at hwrites hspec
      rcases hwrites with ⟨merged, hsome⟩
      cases hspec with
      | enterFirst _ _ n key length inner rest hval =>
          have hiff := hnode (g.set zero merged.node)
          rw [hval] at hiff ⊢
          rw [hsome]
          rw [show (Node.object (some n) ((key, .object length inner) ::
            rest)).kind = .array from rfl, kind_eq_array,
            Container.isSome_length_set] at hiff
          exact hiff.symm
  | enter g =>
      rw [hmeeting] at hwrites hspec
      rcases hwrites with ⟨merged, hlength, hsome⟩
      cases hspec with
      | enter _ fields hval =>
          have hiff := hnode merged
          rw [hval] at hiff ⊢
          rw [hsome]
          rw [show (Node.object none fields).kind = .object from rfl,
            kind_eq_object, hlength] at hiff
          exact hiff.symm

/-! ## The states that merge well -/

section States

variable {target source : StateObject}

theorem nodup_source : (source.container.fields.map Prod.fst).Nodup := by
  show ((Node.ofFields source.fields).map Prod.fst).Nodup
  rw [keys_ofFields]
  exact source.keysOnce.left

theorem all_source : AllProper source.container.fields :=
  proper_ofFields source.fields source.keysOnce.right

theorem errorOf_merge :
    errorOf (merge target source) = firstStop (met target source) :=
  errorOf_deepMerge target.container source.container.fields nodup_source
    all_source

theorem conflict_iff :
    (exists src element,
      merge target source = .error (.conflict src element)) <->
      exists src element,
        firstStop (met target source) = some (.conflict src element) := by
  rw [← errorOf_merge]
  cases merge target source with
  | ok merged =>
      apply iff_of_false
      · intro h
        rcases h with ⟨src, element, heq⟩
        cases heq
      · intro h
        rcases h with ⟨src, element, heq⟩
        cases heq
  | error e =>
      constructor
      · intro h
        rcases h with ⟨src, element, heq⟩
        exact ⟨src, element, congrArg some (Except.error.inj heq)⟩
      · intro h
        rcases h with ⟨src, element, heq⟩
        exact ⟨src, element, congrArg Except.error (Option.some.inj heq)⟩

theorem kinds_iff {merged : Container} (h : merge target source = .ok merged) :
    (forall entry, entry ∈ source.container.fields -> entry.2.truthy = true ->
      exists v, merged.fields.lookup entry.1 = some v ∧
        v.kind = entry.2.kind) <->
      forall entry, entry ∈ source.container.fields ->
        (meeting (target.container.get entry.1) entry.2).KeepsKind
          (target.container.get entry.1) entry.2 := by
  apply forall₂_congr
  intro entry hentry
  rcases written_of_deepMerge nodup_source h hentry with
    ⟨written, hwritten, hget, _⟩
  have hlookup : (exists v, merged.fields.lookup entry.1 = some v ∧
        v.kind = entry.2.kind) <->
      exists v, ((target.container.get entry.1).after written) = .own v ∧
        v.kind = entry.2.kind := by
    rw [← hget]
    exact exists_congr fun v => and_congr_left' lookup_iff_get
  by_cases htruthy : entry.2.truthy = true
  · rw [hlookup, keepsKind_iff hwritten htruthy]
    exact forall_prop_of_true htruthy
  · have hkeep : meeting (target.container.get entry.1) entry.2 = .keep := by
      unfold meeting
      rw [Bool.eq_false_of_not_eq_true htruthy]
      rfl
    rw [hkeep]
    exact iff_of_true (fun h => absurd h htruthy) fun h => absurd h htruthy

theorem again_iff {merged : Container} (h : merge target source = .ok merged) :
    deepMerge merged source.container.fields = .ok merged <->
      forall pair, pair ∈ met target source -> Again pair := by
  have hrepeats := again_of_each nodup_source
    (fun entry hentry =>
      again_each target.container source.container.fields all_source hentry) h
  rcases hrepeats with ⟨hall, hok⟩ | ⟨hnot, e, herror⟩
  · exact iff_of_true hok hall
  · apply iff_of_false
    · intro hok
      rw [herror] at hok
      cases hok
    · exact hnot

theorem mergesWell_iff_agrees :
    MergesWell target source <-> Agrees target source := by
  have hstop : errorOf (merge target source) = firstStop (met target source) :=
    errorOf_merge
  apply or_congr conflict_iff
  cases hmerge : merge target source with
  | error e =>
      rw [hmerge] at hstop
      apply iff_of_false
      · intro h
        rcases h with ⟨merged, hok, _⟩
        cases hok
      · intro h
        rw [← hstop] at h
        cases h.left
  | ok merged =>
      rw [hmerge] at hstop
      have hkept : forall key, key ∉ source.fields.map Prod.fst ->
          merged.fields.lookup key = target.container.fields.lookup key := by
        intro key hkey
        rw [← keys_ofFields] at hkey
        exact (kept_of_deepMerge hmerge hkey).right.left
      constructor
      · intro h
        rcases h with ⟨other, hok, hkinds, _, hagain⟩
        rw [← Except.ok.inj hok] at hkinds hagain
        exact ⟨hstop.symm, (again_iff hmerge).mp hagain,
          (kinds_iff hmerge).mp hkinds⟩
      · intro h
        rcases h with ⟨_, hagain, hkinds⟩
        exact ⟨merged, rfl, (kinds_iff hmerge).mpr hkinds, hkept,
          (again_iff hmerge).mpr hagain⟩

end States

/-- States merge well when they agree, and where the walk stays inside of them
in no other case. -/
theorem mergesWell_iff (target source : StateObject) :
    (Agrees target source -> MergesWell target source) ∧
      (StaysInside target source -> MergesWell target source ->
        Agrees target source) :=
  ⟨mergesWell_iff_agrees.mpr, fun _ => mergesWell_iff_agrees.mp⟩

def stateOf (key : String) (v : Json) (h : KeysOnce v) : StateObject where
  fields := [(key.toList, v)]
  keysOnce := ⟨List.nodup_singleton _, h, True.intro⟩

/-- A text of the target meets an array of the source. -/
theorem not_mergesWell_text :
    ¬MergesWell (stateOf "a" (.str ['x']) True.intro)
      (stateOf "a" (.arr [.str ['y']]) ⟨True.intro, True.intro⟩) := by
  intro h
  rcases h with ⟨src, element, herror⟩ | ⟨merged, hok, _⟩
  · cases herror
  · cases hok

end Web
end CallgentApi
