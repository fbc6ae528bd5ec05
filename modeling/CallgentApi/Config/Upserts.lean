import CallgentApi.Config.Providers
import Mathlib.Data.List.Induction

/-!
# The realms of an import

Each upsert of an import looks its realm up and then creates or updates it.
Two upserts of one key that both find nothing both create, and the index
refuses the second.
-/

namespace CallgentApi
namespace Config

open Js Event Realms Cached

/-- `findFirst` finds the realm of a key, if there is one. -/
def Platform.FindsByKey (platform : Platform) : Prop :=
  forall key realms, platform.findFirst key realms = realms.findUnique key

def Upsert.key (u : Upsert) : Text × Text :=
  (u.callgentId, u.realmKey)

/-! ## One call of the database -/

inductive Moved (u : Upsert) : Table (Text × Text) Realm -> UpsertState ->
    Table (Text × Text) Realm -> UpsertState -> Prop where
  | look {t : Table (Text × Text) Realm} :
      Moved u t .looking t (.writing (t.findUnique u.key))
  | update {t : Table (Text × Text) Realm} {existing found : RealmRow}
      (hfound : t.findUnique u.key = some found)
      (hpk : found.pk = existing.pk) (hfree : t.Free found.pk u.key) :
      Moved u t (.writing (some existing)) (t.move found.pk u.key u.over hfree)
        (.done ⟨found.pk, u.key, u.over found.value⟩)
  | create {t : Table (Text × Text) Realm} (hnew : t.findUnique u.key = none) :
      Moved u t (.writing none) (t.insert u.key u.realm hnew)
        (.done ⟨t.nextPk, u.key, u.realm⟩)
  | rest {t : Table (Text × Text) Realm} {row : RealmRow} :
      Moved u t (.done row) t (.done row)

def Remains (u : Upsert) (t : Table (Text × Text) Realm) :
    UpsertState -> Prop
  | .writing (some existing) =>
      exists found, t.findUnique u.key = some found ∧ found.pk = existing.pk
  | .done row =>
      row.key = u.key ∧
        exists found, t.findUnique u.key = some found ∧ found.pk = row.pk
  | _ => True

section Step

variable {platform : Platform} {u : Upsert} {t t' : Table (Text × Text) Realm}
  {state state' : UpsertState}

theorem upsertStep_writing {existing found : RealmRow}
    (hfound : t.findUnique u.key = some found)
    (hpk : found.pk = existing.pk) :
    upsertStep platform u t (.writing (some existing)) =
      .ok (t.move found.pk u.key u.over (Table.free_of_findUnique hfound),
        .done ⟨found.pk, u.key, u.over found.value⟩) := by
  have hkey : found.key = u.key := Table.key_of_findUnique hfound
  have hsame : (found.key.1, u.realmKey) = u.key := by
    rw [hkey]
    rfl
  show (written recordNotFound (t.findPk existing.pk) >>= _) = _
  rw [← hpk, Table.findPk_of_findUnique hfound]
  show (written uniqueConstraint (t.updateKey found.pk
    (found.key.1, u.realmKey) u.over) >>= _) = _
  rw [hsame]
  unfold Table.updateKey
  rw [dif_pos (Table.free_of_findUnique hfound)]
  rfl

theorem upsertStep_creating :
    upsertStep platform u t (.writing none) =
      match t.create u.key u.realm with
      | some next => .ok (next, .done ⟨t.nextPk, u.key, u.realm⟩)
      | none => .error uniqueConstraint := by
  show (written uniqueConstraint (t.create u.key u.realm) >>= _) = _
  cases t.create u.key u.realm with
  | none => rfl
  | some next => rfl

theorem moved_of_upsertStep (hplatform : platform.FindsByKey)
    (hremains : Remains u t state)
    (h : upsertStep platform u t state = .ok (t', state')) :
    Moved u t state t' state' := by
  cases state with
  | looking =>
      have heq := Except.ok.inj h
      rw [hplatform] at heq
      cases heq
      exact .look
  | writing existing =>
      cases existing with
      | some existing =>
          rcases hremains with ⟨found, hfound, hpk⟩
          rw [upsertStep_writing hfound hpk] at h
          cases h
          exact .update hfound hpk _
      | none =>
          rw [upsertStep_creating] at h
          split at h
          · rename_i next hcreate
            rcases Table.exists_insert_of_create hcreate with ⟨hnew, heq⟩
            cases h
            rw [heq]
            exact .create hnew
          · cases h
  | done row =>
      cases h
      exact .rest

theorem upsertStep_eq_error (hremains : Remains u t state) {e : Thrown}
    (h : upsertStep platform u t state = .error e) :
    state = .writing none ∧ (t.findUnique u.key).isSome ∧
      e = uniqueConstraint := by
  cases state with
  | looking => cases h
  | writing existing =>
      cases existing with
      | some existing =>
          rcases hremains with ⟨found, hfound, hpk⟩
          rw [upsertStep_writing hfound hpk] at h
          cases h
      | none =>
          rw [upsertStep_creating] at h
          split at h
          · cases h
          · rename_i hcreate
            refine ⟨rfl, ?_, (Except.error.inj h).symm⟩
            by_contra hnone
            rw [Table.create_of_none u.realm (by simpa using hnone)] at hcreate
            cases hcreate
  | done row => cases h

theorem Moved.findUnique (h : Moved u t state t' state') {key : Text × Text}
    {found : RealmRow} (hfound : t.findUnique key = some found) :
    exists found', t'.findUnique key = some found' ∧
      found'.pk = found.pk := by
  cases h with
  | look => exact ⟨found, hfound, rfl⟩
  | update hold hpk hfree =>
      rw [Table.findUnique_move_self hold, hfound]
      exact ⟨_, rfl, Table.moveRow_pk _ _ _ _⟩
  | create hnew =>
      have hne : key ≠ u.key := by
        intro heq
        rw [heq, hnew] at hfound
        cases hfound
      rw [Table.findUnique_insert_of_ne u.realm hnew hne]
      exact ⟨found, hfound, rfl⟩
  | rest => exact ⟨found, hfound, rfl⟩

theorem Moved.created (h : Moved u t state t' state') {key : Text × Text}
    (hnone : t.findUnique key = none)
    (hsome : (t'.findUnique key).isSome) :
    key = u.key ∧ state = .writing none := by
  cases h with
  | look =>
      rw [hnone] at hsome
      cases hsome
  | update hold hpk hfree =>
      rw [Table.findUnique_move_self hold, hnone] at hsome
      cases hsome
  | create hnew =>
      by_contra hne
      have hother : key ≠ u.key := fun heq => hne ⟨heq, rfl⟩
      rw [Table.findUnique_insert_of_ne u.realm hnew hother, hnone] at hsome
      cases hsome
  | rest =>
      rw [hnone] at hsome
      cases hsome

theorem Moved.isSome (h : Moved u t state t' state')
    (hnot : state ≠ .looking) (hremains : Remains u t state) :
    (t'.findUnique u.key).isSome := by
  cases h with
  | look => exact absurd rfl hnot
  | update hold hpk hfree =>
      rw [Table.findUnique_move_self hold, hold]
      rfl
  | create hnew =>
      rw [Table.findUnique_insert_self]
      rfl
  | rest =>
      rcases hremains.right with ⟨found, hfound, _⟩
      rw [hfound]
      rfl

theorem Remains.of_moved {v : Upsert} {other : UpsertState}
    (hother : Remains v t other) (h : Moved u t state t' state') :
    Remains v t' other := by
  cases other with
  | looking => exact True.intro
  | writing existing =>
      cases existing with
      | none => exact True.intro
      | some existing =>
          rcases hother with ⟨found, hfound, hpk⟩
          rcases h.findUnique hfound with ⟨found', hfound', hpk'⟩
          exact ⟨found', hfound', hpk'.trans hpk⟩
  | done row =>
      rcases hother with ⟨hkey, found, hfound, hpk⟩
      rcases h.findUnique hfound with ⟨found', hfound', hpk'⟩
      exact ⟨hkey, found', hfound', hpk'.trans hpk⟩

theorem Moved.remains (h : Moved u t state t' state')
    (hremains : Remains u t state) : Remains u t' state' := by
  cases h with
  | look =>
      cases hfound : t.findUnique u.key with
      | none => exact True.intro
      | some found => exact ⟨found, hfound, rfl⟩
  | update hold hpk hfree =>
      refine ⟨rfl, ?_⟩
      rw [Table.findUnique_move_self hold, hold]
      exact ⟨_, rfl, Table.moveRow_pk _ _ _ _⟩
  | create hnew =>
      exact ⟨rfl, _, Table.findUnique_insert_self u.realm hnew, rfl⟩
  | rest => exact hremains

end Step

/-! ## Many upserts -/

/-- The realm was there, or an upsert of its key has made both of its calls. -/
def Stored (realms : Table (Text × Text) Realm) (upserts : List Upsert)
    (before : List Nat) (key : Text × Text) : Prop :=
  (realms.findUnique key).isSome ∨
    exists i u, upserts[i]? = some u ∧ u.key = key ∧ 2 ≤ before.count i

/-- No upsert looks for a realm that is not stored while another one of its
key has looked for it and not yet created it. -/
def RaceFree (realms : Table (Text × Text) Realm) (upserts : List Upsert)
    (order : List Nat) : Prop :=
  forall before i after, order = before ++ i :: after ->
    before.count i = 0 -> forall u, upserts[i]? = some u ->
      ¬ Stored realms upserts before u.key ->
        forall j v, upserts[j]? = some v -> v.key = u.key ->
          before.count j ≠ 1

/-- How far an upsert is after a number of calls. -/
def UpsertState.After : UpsertState -> Nat -> Prop
  | .looking, n => n = 0
  | .writing _, n => n = 1
  | .done _, n => 2 ≤ n

structure Progress (realms : Table (Text × Text) Realm)
    (upserts : List Upsert) (before : List Nat) (s : Importing) : Prop where
  length : s.states.length = upserts.length
  spot : forall (i : Nat) (u : Upsert), upserts[i]? = some u ->
    exists state, s.states[i]? = some state ∧ Remains u s.realms state ∧
      state.After (before.count i)
  stored : forall key, (s.realms.findUnique key).isSome <->
    Stored realms upserts before key

section Import

variable {platform : Platform} {realms : Table (Text × Text) Realm}
  {upserts : List Upsert} {before : List Nat} {s s' : Importing} {i : Nat}

theorem progress_importing (realms : Table (Text × Text) Realm)
    (upserts : List Upsert) :
    Progress realms upserts [] (importing upserts realms) where
  length := List.length_map _
  spot := by
    intro i u hu
    exists .looking
    refine ⟨?_, True.intro, rfl⟩
    show (upserts.map _)[i]? = _
    rw [List.getElem?_map, hu]
    rfl
  stored := by
    intro key
    constructor
    · exact Or.inl
    · intro h
      rcases h with hold | ⟨_, _, _, _, hcount⟩
      · exact hold
      · exact absurd hcount (by simp)

theorem importStep_of_some {u : Upsert} {state : UpsertState}
    (hu : upserts[i]? = some u) (hstate : s.states[i]? = some state) :
    importStep platform upserts s i =
      match upsertStep platform u s.realms state with
      | .ok (t, state') => .ok ⟨t, s.states.set i state'⟩
      | .error e => .error e := by
  unfold importStep
  rw [hu, hstate]
  show (upsertStep platform u s.realms state >>= _) = _
  cases upsertStep platform u s.realms state with
  | error e => rfl
  | ok moved => rfl

theorem importStep_of_none (hu : upserts[i]? = none) :
    importStep platform upserts s i = .ok s := by
  unfold importStep
  rw [hu]

theorem count_append_singleton (before : List Nat) (i j : Nat) :
    (before ++ [i]).count j = before.count j + if i = j then 1 else 0 := by
  rw [List.count_append, List.count_singleton]
  simp

theorem stored_append {key : Text × Text} :
    Stored realms upserts (before ++ [i]) key <->
      Stored realms upserts before key ∨
        exists u, upserts[i]? = some u ∧ u.key = key ∧
          before.count i = 1 := by
  unfold Stored
  constructor
  · intro h
    rcases h with hold | ⟨j, v, hv, hkey, hcount⟩
    · exact Or.inl (Or.inl hold)
    · rw [count_append_singleton] at hcount
      by_cases hij : i = j
      · rw [if_pos hij] at hcount
        by_cases htwo : 2 ≤ before.count j
        · exact Or.inl (Or.inr ⟨j, v, hv, hkey, htwo⟩)
        · rw [← hij] at hv hcount htwo
          exact Or.inr ⟨v, hv, hkey, by omega⟩
      · rw [if_neg hij] at hcount
        exact Or.inl (Or.inr ⟨j, v, hv, hkey, hcount⟩)
  · intro h
    rcases h with (hold | ⟨j, v, hv, hkey, hcount⟩) | ⟨u, hu, hkey, hcount⟩
    · exact Or.inl hold
    · refine Or.inr ⟨j, v, hv, hkey, ?_⟩
      rw [count_append_singleton]
      exact Nat.le_add_right_of_le hcount
    · refine Or.inr ⟨i, u, hu, hkey, ?_⟩
      rw [count_append_singleton, if_pos rfl, hcount]

theorem Moved.after {u : Upsert} {t t' : Table (Text × Text) Realm}
    {state state' : UpsertState} (h : Moved u t state t' state') {n : Nat}
    (hafter : state.After n) : state'.After (n + 1) := by
  cases h with
  | look => exact congrArg Nat.succ hafter
  | update => exact Nat.le_of_eq (congrArg Nat.succ hafter).symm
  | create => exact Nat.le_of_eq (congrArg Nat.succ hafter).symm
  | rest => exact Nat.le_succ_of_le hafter

theorem progress_importStep (hplatform : platform.FindsByKey)
    (h : Progress realms upserts before s)
    (hstep : importStep platform upserts s i = .ok s') :
    Progress realms upserts (before ++ [i]) s' := by
  cases hu : upserts[i]? with
  | none =>
      rw [importStep_of_none hu] at hstep
      rw [← Except.ok.inj hstep]
      refine ⟨h.length, ?_, ?_⟩
      · intro j v hv
        have hij : i ≠ j := by
          intro heq
          rw [heq, hv] at hu
          cases hu
        rw [count_append_singleton, if_neg hij]
        exact h.spot j v hv
      · intro key
        rw [h.stored, stored_append, hu]
        simp
  | some u =>
      rcases h.spot i u hu with ⟨state, hstate, hremains, hafter⟩
      rw [importStep_of_some hu hstate] at hstep
      cases hupsert : upsertStep platform u s.realms state with
      | error e =>
          rw [hupsert] at hstep
          cases hstep
      | ok next =>
          rcases next with ⟨t, state'⟩
          rw [hupsert] at hstep
          cases hstep
          have hmoved := moved_of_upsertStep hplatform hremains hupsert
          refine ⟨(List.length_set ..).trans h.length, ?_, ?_⟩
          · intro j v hv
            rw [count_append_singleton]
            by_cases hij : i = j
            · rw [← hij] at hv ⊢
              have hlt := (List.getElem?_eq_some_iff.mp hstate).choose
              rw [← Option.some.inj (hu.symm.trans hv), if_pos rfl]
              exact ⟨state', List.getElem?_set_self hlt,
                hmoved.remains hremains, hmoved.after hafter⟩
            · rw [if_neg hij]
              rcases h.spot j v hv with
                ⟨other, hother, hremainsOther, hafterOther⟩
              refine ⟨other, ?_, hremainsOther.of_moved hmoved, hafterOther⟩
              exact (List.getElem?_set_ne hij).trans hother
          · intro key
            rw [stored_append, ← h.stored]
            constructor
            · intro hsome
              by_cases hbefore : (s.realms.findUnique key).isSome
              · exact Or.inl hbefore
              · rcases hmoved.created (by simpa using hbefore) hsome with
                  ⟨hkey, hcreating⟩
                rw [hcreating] at hafter
                exact Or.inr ⟨u, hu, hkey.symm, hafter⟩
            · intro hor
              rcases hor with hbefore | ⟨v, hv, hkey, hcount⟩
              · rcases Option.isSome_iff_exists.mp hbefore with
                  ⟨found, hfound⟩
                rcases hmoved.findUnique hfound with ⟨found', hfound', _⟩
                exact Option.isSome_iff_exists.mpr ⟨found', hfound'⟩
              · rw [← hkey, ← Option.some.inj (hu.symm.trans hv)]
                apply hmoved.isSome _ hremains
                intro hlooking
                rw [hlooking] at hafter
                have hzero : before.count i = 0 := hafter
                omega

def after (platform : Platform) (realms : Table (Text × Text) Realm)
    (upserts : List Upsert) (order : List Nat) : Except Thrown Importing :=
  order.foldlM (importStep platform upserts) (importing upserts realms)

theorem after_append (order : List Nat) (i : Nat) :
    after platform realms upserts (order ++ [i]) =
      after platform realms upserts order >>= fun s =>
        importStep platform upserts s i := by
  unfold after
  rw [List.foldlM_append]
  congr 1
  funext s
  rw [List.foldlM_cons]
  cases importStep platform upserts s i with
  | error e => rfl
  | ok s' => rfl

theorem progress_after (hplatform : platform.FindsByKey) {order : List Nat}
    (h : after platform realms upserts order = .ok s) :
    Progress realms upserts order s := by
  induction order using List.reverseRecOn generalizing s with
  | nil =>
      cases h
      exact progress_importing realms upserts
  | append_singleton order i ih =>
      rw [after_append] at h
      rcases Fallible.exists_of_bind_ok h with ⟨mid, hmid, hstep⟩
      exact progress_importStep hplatform (ih hmid) hstep

/-! ## Imports without a race -/

/-- At most one upsert of a key is about to create its realm, which is not
there. -/
structure Unraced (upserts : List Upsert) (s : Importing) : Prop where
  alone : forall (i j : Nat) (u v : Upsert), upserts[i]? = some u ->
    upserts[j]? = some v -> u.key = v.key ->
      s.states[i]? = some (.writing none) ->
        s.states[j]? = some (.writing none) -> i = j
  absent : forall (i : Nat) (u : Upsert), upserts[i]? = some u ->
    s.states[i]? = some (.writing none) -> s.realms.findUnique u.key = none

theorem unraced_importing (realms : Table (Text × Text) Realm)
    (upserts : List Upsert) : Unraced upserts (importing upserts realms) := by
  have hlooking : forall i : Nat,
      (importing upserts realms).states[i]? ≠ some (.writing none) := by
    intro i hstate
    rcases List.mem_map.mp (List.mem_of_getElem? hstate) with ⟨_, _, heq⟩
    cases heq
  exact ⟨fun i _ _ _ _ _ _ hstate => absurd hstate (hlooking i),
    fun i _ _ hstate => absurd hstate (hlooking i)⟩

theorem unraced_importStep (hplatform : platform.FindsByKey)
    (hprogress : Progress realms upserts before s)
    (hunraced : Unraced upserts s)
    (hfree : before.count i = 0 -> forall u, upserts[i]? = some u ->
      ¬ Stored realms upserts before u.key ->
        forall j v, upserts[j]? = some v -> v.key = u.key ->
          before.count j ≠ 1) :
    exists s', importStep platform upserts s i = .ok s' ∧
      Unraced upserts s' := by
  cases hu : upserts[i]? with
  | none => exact ⟨s, importStep_of_none hu, hunraced⟩
  | some u =>
      rcases hprogress.spot i u hu with ⟨state, hstate, hremains, hafter⟩
      have hlt := (List.getElem?_eq_some_iff.mp hstate).choose
      rw [importStep_of_some hu hstate]
      cases hupsert : upsertStep platform u s.realms state with
      | error e =>
          rcases upsertStep_eq_error hremains hupsert with ⟨rfl, hthere, _⟩
          rw [hunraced.absent i u hu hstate] at hthere
          cases hthere
      | ok next =>
          rcases next with ⟨t, state'⟩
          have hmoved := moved_of_upsertStep hplatform hremains hupsert
          -- who is about to create after the call was so before, or has just
          -- looked
          have hother : forall (j : Nat), i ≠ j ->
              (s.states.set i state')[j]? = s.states[j]? :=
            fun j hij => List.getElem?_set_ne hij
          have hself : (s.states.set i state')[i]? = some state' :=
            List.getElem?_set_self hlt
          have hlooked : state' = .writing none ->
              state = .looking ∧ s.realms.findUnique u.key = none ∧
                t = s.realms := by
            intro hwriting
            rw [hwriting] at hmoved
            generalize hnone : UpsertState.writing none = target at hmoved
            cases hmoved with
            | look =>
                exact ⟨rfl, (UpsertState.writing.inj hnone).symm, rfl⟩
            | update => cases hnone
            | create => cases hnone
            | rest => cases hnone
          have hrival : state' = .writing none -> forall (j : Nat) v,
              upserts[j]? = some v -> v.key = u.key ->
                s.states[j]? ≠ some (.writing none) := by
            intro hwriting j v hv hkey hother
            rcases hlooked hwriting with ⟨hlooking, hnone, _⟩
            rw [hlooking] at hafter
            have hnot : ¬ Stored realms upserts before u.key := by
              rw [← hprogress.stored, hnone]
              exact Bool.false_ne_true
            rcases hprogress.spot j v hv with ⟨other, hat, _, hafterOther⟩
            rw [Option.some.inj (hat.symm.trans hother)] at hafterOther
            exact hfree hafter u hu hnot j v hv hkey hafterOther
          refine ⟨_, rfl, ?_, ?_⟩
          · intro j k v w hv hw hkey hj hk
            change (s.states.set i state')[j]? = _ at hj
            change (s.states.set i state')[k]? = _ at hk
            by_cases hij : i = j
            · by_cases hik : i = k
              · exact hij.symm.trans hik
              · rw [← hij] at hv hj
                rw [hself] at hj
                rw [hother k hik] at hk
                rw [← Option.some.inj (hu.symm.trans hv)] at hkey
                exact absurd hk
                  (hrival (Option.some.inj hj) k w hw hkey.symm)
            · rw [hother j hij] at hj
              by_cases hik : i = k
              · rw [← hik] at hw hk
                rw [hself] at hk
                rw [← Option.some.inj (hu.symm.trans hw)] at hkey
                exact absurd hj (hrival (Option.some.inj hk) j v hv hkey)
              · rw [hother k hik] at hk
                exact hunraced.alone j k v w hv hw hkey hj hk
          · intro j v hv hj
            change (s.states.set i state')[j]? = _ at hj
            show t.findUnique v.key = none
            by_cases hij : i = j
            · rw [← hij] at hv hj
              rw [hself] at hj
              rcases hlooked (Option.some.inj hj) with ⟨_, hnone, ht⟩
              rw [← Option.some.inj (hu.symm.trans hv), ht]
              exact hnone
            · rw [hother j hij] at hj
              have hnone := hunraced.absent j v hv hj
              by_contra hthere
              have hsome : (t.findUnique v.key).isSome :=
                Option.ne_none_iff_isSome.mp hthere
              rcases hmoved.created hnone hsome with ⟨hkey, hcreating⟩
              rw [hcreating] at hstate
              exact hij
                (hunraced.alone i j u v hu hv hkey.symm hstate hj)

theorem RaceFree.of_append {order : List Nat}
    (h : RaceFree realms upserts (order ++ [i])) :
    RaceFree realms upserts order := by
  intro before j rest heq
  apply h before j (rest ++ [i])
  rw [heq, List.append_assoc]
  rfl

theorem exists_after_of_raceFree (hplatform : platform.FindsByKey)
    {order : List Nat} (h : RaceFree realms upserts order) :
    exists s, after platform realms upserts order = .ok s ∧
      Unraced upserts s := by
  induction order using List.reverseRecOn with
  | nil => exact ⟨_, rfl, unraced_importing realms upserts⟩
  | append_singleton order i ih =>
      rcases ih h.of_append with ⟨s, hs, hunraced⟩
      rw [after_append, hs]
      exact unraced_importStep hplatform (progress_after hplatform hs) hunraced
        (h order i [] rfl)

/-! ## Imports with a race -/

/-- An upsert is about to create a realm that is there, or that another one is
about to create as well. -/
def Trap (upserts : List Upsert) (s : Importing) : Prop :=
  exists (i : Nat) (u : Upsert), upserts[i]? = some u ∧
    s.states[i]? = some (.writing none) ∧
      ((s.realms.findUnique u.key).isSome ∨
        exists (j : Nat) (v : Upsert), i ≠ j ∧ upserts[j]? = some v ∧
          v.key = u.key ∧ s.states[j]? = some (.writing none))

theorem trap_importStep (hplatform : platform.FindsByKey)
    (hprogress : Progress realms upserts before s) (htrap : Trap upserts s)
    (hstep : importStep platform upserts s i = .ok s') :
    Trap upserts s' := by
  cases hu : upserts[i]? with
  | none =>
      rw [importStep_of_none hu] at hstep
      exact Except.ok.inj hstep ▸ htrap
  | some u =>
      rcases hprogress.spot i u hu with ⟨state, hstate, hremains, _⟩
      rw [importStep_of_some hu hstate] at hstep
      cases hupsert : upsertStep platform u s.realms state with
      | error e =>
          rw [hupsert] at hstep
          cases hstep
      | ok next =>
          rcases next with ⟨t, state'⟩
          rw [hupsert] at hstep
          cases hstep
          have hmoved := moved_of_upsertStep hplatform hremains hupsert
          have hother : forall (j : Nat), i ≠ j ->
              (s.states.set i state')[j]? = s.states[j]? :=
            fun j hij => List.getElem?_set_ne hij
          have hwritten : state = .writing none ->
              (t.findUnique u.key).isSome := by
            intro hwriting
            apply hmoved.isSome _ hremains
            rw [hwriting]
            exact fun h => nomatch h
          rcases htrap with ⟨k, w, hw, hk, hor⟩
          by_cases hik : i = k
          · rw [← hik] at hw hk hor
            have hsame := Option.some.inj (hu.symm.trans hw)
            have hwriting := Option.some.inj (hstate.symm.trans hk)
            rw [← hsame] at hor
            rcases hor with hthere | ⟨j, v, hij, hv, hkey, hj⟩
            · rw [hwriting] at hmoved
              generalize hnone : UpsertState.writing none = from_ at hmoved
              cases hmoved with
              | look => cases hnone
              | update => cases hnone
              | create hnew =>
                  rw [hnew] at hthere
                  cases hthere
              | rest => cases hnone
            · refine ⟨j, v, hv, (hother j hij).trans hj, Or.inl ?_⟩
              rw [hkey]
              exact hwritten hwriting
          · refine ⟨k, w, hw, (hother k hik).trans hk, ?_⟩
            rcases hor with hthere | ⟨j, v, hkj, hv, hkey, hj⟩
            · rcases Option.isSome_iff_exists.mp hthere with ⟨found, hfound⟩
              rcases hmoved.findUnique hfound with ⟨found', hfound', _⟩
              exact Or.inl (Option.isSome_iff_exists.mpr ⟨found', hfound'⟩)
            · by_cases hij : i = j
              · rw [← hij] at hv hj
                rw [← hkey, ← Option.some.inj (hu.symm.trans hv)]
                exact Or.inl (hwritten (Option.some.inj (hstate.symm.trans hj)))
              · exact Or.inr ⟨j, v, hkj, hv, hkey, (hother j hij).trans hj⟩

theorem raceFree_of_after (hplatform : platform.FindsByKey)
    {order : List Nat}
    (hwhole : forall i, i < upserts.length -> 2 ≤ order.count i)
    (h : after platform realms upserts order = .ok s) :
    RaceFree realms upserts order := by
  intro before i rest horder hcount u hu hnot j v hv hkey hone
  have hprogress := progress_after hplatform h
  have hsplit : order = (before ++ [i]) ++ rest := by
    rw [horder, List.append_assoc]
    rfl
  rw [hsplit] at h
  unfold after at h
  rw [List.foldlM_append] at h
  rcases Fallible.exists_of_bind_ok h with ⟨mid, hmid, hrest⟩
  have hmidProgress := progress_after hplatform hmid
  change after platform realms upserts (before ++ [i]) = _ at hmid
  rw [after_append] at hmid
  rcases Fallible.exists_of_bind_ok hmid with ⟨start, hstart, hlook⟩
  have hstartProgress := progress_after hplatform hstart
  have hnone : start.realms.findUnique u.key = none := by
    rw [← hstartProgress.stored] at hnot
    simpa using hnot
  -- the upsert looks, while its rival is about to create
  have htrap : Trap upserts mid := by
    rcases hstartProgress.spot i u hu with ⟨state, hstate, hremains, hafter⟩
    rcases hstartProgress.spot j v hv with
      ⟨other, hother, hremainsOther, hafterOther⟩
    rw [hcount] at hafter
    rw [hone] at hafterOther
    have hij : i ≠ j := by
      intro heq
      rw [heq, hone] at hcount
      cases hcount
    have hlt := (List.getElem?_eq_some_iff.mp hstate).choose
    rw [importStep_of_some hu hstate] at hlook
    cases state with
    | looking =>
        have hfound : upsertStep platform u start.realms .looking =
            .ok (start.realms, .writing none) := by
          show Except.ok (start.realms,
            UpsertState.writing (platform.findFirst u.key start.realms)) = _
          rw [hplatform, hnone]
        rw [hfound] at hlook
        cases hlook
        cases other with
        | looking => cases hafterOther
        | writing existing =>
            cases existing with
            | none =>
                exact ⟨i, u, hu, List.getElem?_set_self hlt, Or.inr
                  ⟨j, v, hij, hv, hkey,
                    (List.getElem?_set_ne hij).trans hother⟩⟩
            | some existing =>
                rcases hremainsOther with ⟨found, hfound, _⟩
                rw [hkey, hnone] at hfound
                cases hfound
        | done row => exact absurd hafterOther (by simp [UpsertState.After])
    | writing existing => cases hafter
    | done row => exact absurd hafter (by simp [UpsertState.After])
  have hend : (exists order, Progress realms upserts order s) ∧
      Trap upserts s := by
    apply Fallible.foldlM_invariant (fun s =>
      (exists order, Progress realms upserts order s) ∧ Trap upserts s) _ _
        hrest
    · intro s k s' _ hinv hstep
      rcases hinv with ⟨⟨order, hs⟩, htrap⟩
      exact ⟨⟨_, progress_importStep hplatform hs hstep⟩,
        trap_importStep hplatform hs htrap hstep⟩
    · exact ⟨⟨_, hmidProgress⟩, htrap⟩
  rcases hend.right with ⟨k, w, hw, hk, _⟩
  rcases hprogress.spot k w hw with ⟨state, hstate, _, hafter⟩
  rw [Option.some.inj (hstate.symm.trans hk)] at hafter
  have htwo := hwhole k (List.getElem?_eq_some_iff.mp hw).choose
  have hafter : order.count k = 1 := hafter
  omega

theorem eq_uniqueConstraint_of_after (hplatform : platform.FindsByKey)
    {order : List Nat} {e : Thrown}
    (h : after platform realms upserts order = .error e) :
    e = uniqueConstraint := by
  induction order using List.reverseRecOn with
  | nil => cases h
  | append_singleton order i ih =>
      rw [after_append] at h
      cases hs : after platform realms upserts order with
      | error e' =>
          rw [hs] at h ih
          cases h
          exact ih rfl
      | ok s =>
          rw [hs] at h
          change importStep platform upserts s i = .error e at h
          cases hu : upserts[i]? with
          | none =>
              rw [importStep_of_none hu] at h
              cases h
          | some u =>
              rcases (progress_after hplatform hs).spot i u hu with
                ⟨state, hstate, hremains, _⟩
              rw [importStep_of_some hu hstate] at h
              cases hupsert : upsertStep platform u s.realms state with
              | ok next =>
                  rw [hupsert] at h
                  cases h
              | error e' =>
                  rw [hupsert] at h
                  cases h
                  exact (upsertStep_eq_error hremains hupsert).right.right

end Import

/-! ## The import of an API -/

/-- Each name of a scheme is mapped to the realm of its key, which is the only
one there is. -/
def ImportsOnce (platform : Platform) (realms : Table (Text × Text) Realm)
    (names : List Text) (upserts : List Upsert) (order : List Nat) : Prop :=
  exists imported, after platform realms upserts order = .ok imported ∧
    forall (i : Nat) (u : Upsert) (name : Text), upserts[i]? = some u ->
      names[i]? = some name ->
        exists row stored,
          (realmMap names imported.states).lookup name = some row ∧
            row.key = u.key ∧ stored.pk = row.pk ∧
            forall other, other ∈ imported.realms.rows ∧ other.key = u.key <->
              other = stored

theorem count_wholeSchedule (upserts : List Upsert) (schedule : List Nat) :
    forall i, i < upserts.length ->
      2 ≤ (wholeSchedule upserts schedule).count i := by
  intro i hi
  have hmem : i ∈ List.range upserts.length := List.mem_range.mpr hi
  rcases List.append_of_mem hmem with ⟨before, rest, hrange⟩
  unfold wholeSchedule
  rw [hrange, List.flatMap_append, List.flatMap_cons, List.count_append,
    List.count_append, List.count_append]
  have htwo : [i, i].count i = 2 := by simp
  omega

theorem lookup_realmMap {names : List Text} (hnames : names.Nodup)
    {states : List UpsertState} {i : Nat} {name : Text} {row : RealmRow}
    (hname : names[i]? = some name)
    (hstate : states[i]? = some (.done row)) :
    (realmMap names states).lookup name = some row := by
  induction names generalizing states i with
  | nil => cases hname
  | cons first rest ih =>
      cases states with
      | nil => cases hstate
      | cons state states =>
          cases i with
          | zero =>
              cases hname
              cases hstate
              show List.lookup _ ((_, row) :: _) = _
              rw [List.lookup_cons, beq_self_eq_true]
          | succ i =>
              have hmem : name ∈ rest := List.mem_of_getElem? hname
              have hne : name ≠ first := by
                intro heq
                rw [heq] at hmem
                exact (List.nodup_cons.mp hnames).left hmem
              have hrest := ih (List.nodup_cons.mp hnames).right hname hstate
              cases hrow : state.row? with
              | none =>
                  have hskip : realmMap (first :: rest) (state :: states) =
                      realmMap rest states := by
                    unfold realmMap
                    rw [List.zip_cons_cons, List.filterMap_cons, hrow]
                    rfl
                  rw [hskip]
                  exact hrest
              | some other =>
                  have hkeep : realmMap (first :: rest) (state :: states) =
                      (first, other) :: realmMap rest states := by
                    unfold realmMap
                    rw [List.zip_cons_cons, List.filterMap_cons, hrow]
                    rfl
                  rw [hkeep, List.lookup_cons, beq_false_of_ne hne]
                  exact hrest

/-- The import of security schemes ends with one realm for each key, to which
its names are mapped, exactly when no upsert looks for a realm that another one
is about to create; otherwise it is refused by the index. -/
theorem importsOnce_iff_raceFree {platform : Platform}
    (hplatform : platform.FindsByKey) {c : Tables} {entryId : Text}
    {entry : EntryRow} {spec : ApiSpec} {upserts : List Upsert}
    (hentry : findEntry c entryId = .ok entry)
    (htype : entry.value.type = .server)
    (hnames : (spec.securitySchemes.map Prod.fst).Nodup)
    (hupserts : spec.securitySchemes.mapM (fun named =>
      constructUpsert platform entry.value named.2 ⟨none, none⟩
        spec.servers) = .ok upserts) (schedule : List Nat) :
    (ImportsOnce platform c.realms (spec.securitySchemes.map Prod.fst) upserts
        (wholeSchedule upserts schedule) <->
      RaceFree c.realms upserts (wholeSchedule upserts schedule)) ∧
      (¬ RaceFree c.realms upserts (wholeSchedule upserts schedule) ->
        forall ids, createBatch platform c entryId spec schedule ids =
          .error uniqueConstraint) := by
  have hwhole := count_wholeSchedule upserts schedule
  constructor
  · constructor
    · intro h
      rcases h with ⟨imported, himported, _⟩
      exact raceFree_of_after hplatform hwhole himported
    · intro h
      rcases exists_after_of_raceFree hplatform h with ⟨imported, himported, _⟩
      refine ⟨imported, himported, ?_⟩
      intro i u name hu hname
      rcases (progress_after hplatform himported).spot i u hu with
        ⟨state, hstate, hremains, hafter⟩
      have htwo := hwhole i (List.getElem?_eq_some_iff.mp hu).choose
      cases state with
      | looking =>
          have hzero : _ = 0 := hafter
          omega
      | writing existing =>
          have hone : _ = 1 := hafter
          omega
      | done row =>
          rcases hremains with ⟨hkey, stored, hstored, hpk⟩
          refine ⟨row, stored, lookup_realmMap hnames hname hstate, hkey, hpk,
            ?_⟩
          intro other
          constructor
          · intro hother
            have hfound := Table.findUnique_of_mem hother.left
            rw [hother.right, hstored] at hfound
            exact (Option.some.inj hfound).symm
          · intro heq
            rw [heq]
            exact ⟨Table.mem_of_findUnique hstored,
              Table.key_of_findUnique hstored⟩
  · intro hrace ids
    have hrefused : after platform c.realms upserts
        (wholeSchedule upserts schedule) = .error uniqueConstraint := by
      cases hafter : after platform c.realms upserts
          (wholeSchedule upserts schedule) with
      | error e => rw [eq_uniqueConstraint_of_after hplatform hafter]
      | ok s => exact absurd (raceFree_of_after hplatform hwhole hafter) hrace
    unfold createBatch
    rw [hentry]
    show (if entry.value.type ≠ .server then _ else _) = _
    rw [if_neg (not_not_intro htype)]
    show (spec.securitySchemes.mapM _ >>= _) = _
    rw [hupserts]
    show (after platform c.realms upserts _ >>= _) = _
    rw [hrefused]
    rfl

/-! ## Two names of one realm -/

def oneShopEntry : Entry where
  type := .server
  adaptorKey := "restAPI".toList
  name := "shop".toList
  host := "https://shop.example/v1".toList
  callgentId := "shop".toList
  securities := []

def oneShop : Tables where
  entries := Table.empty.insert "e1".toList oneShopEntry rfl
  realms := .empty
  endpoints := .empty

def twoNames : ApiSpec where
  apis := []
  securitySchemes := [("key".toList, keyScheme), ("token".toList, keyScheme)]
  servers := []
  securities := []

def shopKey : Upsert where
  callgentId := "shop".toList
  realmKey := "apiKey:header:x-key:shop.example:".toList
  realm := {
    authType := "apiKey".toList
    realm := none
    scheme := keyScheme
    secret := none
    perUser := false
    enabled := false }

theorem findsByKey_shopHosts : shopHosts.FindsByKey := fun _ _ => rfl

theorem importsOnce_twoNames :
    ImportsOnce shopHosts oneShop.realms ["key".toList, "token".toList]
      [shopKey, shopKey] (wholeSchedule [shopKey, shopKey] [0, 0, 1, 1]) := by
  have hfree : RaceFree oneShop.realms [shopKey, shopKey]
      (wholeSchedule [shopKey, shopKey] [0, 0, 1, 1]) :=
    raceFree_of_after findsByKey_shopHosts (count_wholeSchedule _ _) rfl
  have hupserts : twoNames.securitySchemes.mapM (fun named =>
      constructUpsert shopHosts oneShopEntry named.2 ⟨none, none⟩
        twoNames.servers) = .ok [shopKey, shopKey] :=
    rfl
  have hentry : findEntry oneShop "e1".toList =
      .ok ⟨1, "e1".toList, oneShopEntry⟩ :=
    rfl
  have hnames : (twoNames.securitySchemes.map Prod.fst).Nodup := by decide
  exact (importsOnce_iff_raceFree findsByKey_shopHosts hentry rfl hnames
    hupserts [0, 0, 1, 1]).left.mpr hfree

/-- Both upserts look first, and the second of them is refused. -/
theorem refused_twoNames :
    createBatch shopHosts oneShop "e1".toList twoNames [0, 1]
        (fun _ => []) = .error uniqueConstraint ∧
      ¬ ImportsOnce shopHosts oneShop.realms
        ["key".toList, "token".toList] [shopKey, shopKey]
        (wholeSchedule [shopKey, shopKey] [0, 1]) := by
  constructor
  · rfl
  · intro h
    rcases h with ⟨imported, himported, _⟩
    cases himported

end Config
end CallgentApi
