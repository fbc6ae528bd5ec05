import CallgentApi.Agents.Stages
import CallgentApi.Agents.Confirmed

/-!
# How a talk ends

A validator looks at an answer before the steps that use it.  What they still
refuse of an accepted answer is named here, stage by stage.
-/

namespace CallgentApi
namespace Agents

open Js Event Effect Config Fallible

/-! ## Expected ends -/

/-- The errors that the agent throws on purpose. -/
inductive Expected : Thrown -> Prop where
  | impossible (unaddressed : List Purpose) :
      Expected (missionImpossible unaddressed)
  | unclear (groups : List (KeyGroup (Value × Value))) :
      Expected (clarification groups)
  | conversion : Expected missingConversion

def Stage.IsFine : Stage -> Prop
  | ended (.error e) => Expected e
  | _ => True

def IsTypeError (e : Thrown) : Prop :=
  e.isTypeError = true

theorem Expected.not_isTypeError {e : Thrown} (h : Expected e) :
    ¬ IsTypeError e := by
  cases h with
  | impossible unaddressed => exact Bool.false_ne_true
  | unclear groups => exact Bool.false_ne_true
  | conversion => exact Bool.false_ne_true

theorem isFine_orEnd_iff {x : Except Thrown Stage}
    (h : Throws IsTypeError x) :
    (Stage.orEnd x).IsFine <-> exists stage, x = .ok stage ∧ stage.IsFine := by
  cases x with
  | error e =>
      apply iff_of_false
      · intro hfine
        exact Expected.not_isTypeError hfine (h e rfl)
      · intro hok
        rcases hok with ⟨stage, hstage, _⟩
        cases hstage
  | ok stage =>
      constructor
      · intro hfine
        exact ⟨stage, rfl, hfine⟩
      · intro hok
        rcases hok with ⟨stage', hstage, hfine⟩
        rw [Except.ok.inj hstage]
        exact hfine

theorem throws_read (v : Value) (key : String) :
    Throws IsTypeError (read v key) := by
  cases v with
  | none => exact Throws.error rfl
  | some v =>
      cases v with
      | null => exact Throws.error rfl
      | bool b => exact Throws.ok _
      | num n => exact Throws.ok _
      | str s => exact Throws.ok _
      | arr items => exact Throws.ok _
      | obj fields => exact Throws.ok _

theorem exists_read_iff {x : Json} {key : String} :
    (exists value, read (some x) key = .ok value) <-> x ≠ .null := by
  constructor
  · intro h
    rcases h with ⟨value, hvalue⟩
    rcases read_eq_ok_iff.mp hvalue with ⟨w, hw, hne, _⟩
    rw [Option.some.inj hw]
    exact hne
  · intro hne
    exact ⟨_, read_eq_ok_iff.mpr ⟨x, rfl, hne, rfl⟩⟩

theorem read_of_ne_null {x : Json} (h : x ≠ .null) (key : String) :
    read (some x) key = .ok (x.field key.toList) :=
  read_eq_ok_iff.mpr ⟨x, rfl, h, rfl⟩

/-! ## Choices -/

theorem throws_uniqueFrom (key : String) (existing : List Value)
    (arr : List Json) : Throws IsTypeError (uniqueFrom key existing arr) := by
  induction arr generalizing existing with
  | nil => exact Throws.ok []
  | cons x rest ih =>
      unfold uniqueFrom
      apply Throws.bind (throws_read _ _)
      intro value _
      split
      · exact ih existing
      · exact Throws.bind (ih _) fun kept _ => Throws.ok _

theorem uniqueFrom_ok_iff (key : String) (existing : List Value)
    (arr : List Json) :
    (exists kept, uniqueFrom key existing arr = .ok kept) <->
      forall x, x ∈ arr -> x ≠ .null := by
  induction arr generalizing existing with
  | nil => exact iff_of_true ⟨[], rfl⟩ fun _ h => (nomatch h)
  | cons x rest ih =>
      rw [List.forall_mem_cons]
      by_cases hnull : x = .null
      · rw [hnull]
        apply iff_of_false
        · intro h
          rcases h with ⟨kept, hkept⟩
          cases hkept
        · intro h
          exact h.left rfl
      · unfold uniqueFrom
        rw [read_of_ne_null hnull, and_iff_right hnull, ok_bind]
        split
        · exact ih existing
        · rw [← ih (existing ++ [x.field key.toList])]
          constructor
          · intro h
            rcases h with ⟨kept, hkept⟩
            rcases exists_of_bind_ok hkept with ⟨value, hvalue, _⟩
            exact ⟨value, hvalue⟩
          · intro h
            rcases h with ⟨value, hvalue⟩
            rw [hvalue]
            exact ⟨_, rfl⟩

theorem throws_purposesOf (answer : Value) :
    Throws IsTypeError (purposesOf answer) := by
  unfold purposesOf
  apply Throws.bind (throws_read _ _)
  intro used _
  apply Throws.bind (throws_read _ _)
  intro unaddressed _
  apply Throws.bind
  · unfold concat
    split
    · exact Throws.ok _
    · exact Throws.ok _
    · exact Throws.error rfl
  · intro both _
    exact throws_uniqueFrom _ _ both

theorem checkProperty_of_shape {fields : List (Text × Json)} {val : Value}
    (h : checkJsonType (.obj fields) val = .ok ()) {key : Text} {type : Json}
    (hmem : (key, type) ∈ fields) : checkProperty val key type = .ok () := by
  have hloop : forall (l : List (Text × Json)) (r : PUnit),
      (forIn l PUnit.unit fun entry _ => do
        checkProperty val entry.1 entry.2
        pure (ForInStep.yield PUnit.unit) : Except Thrown PUnit) = .ok r ->
      (key, type) ∈ l -> checkProperty val key type = .ok () := by
    intro l r hl hin
    induction l with
    | nil => cases hin
    | cons entry rest ih =>
        rw [List.forIn_cons] at hl
        rcases exists_of_bind_ok hl with ⟨step, hstep, hrest⟩
        rcases exists_of_bind_ok hstep with ⟨checked, hcheck, hyield⟩
        cases hyield
        rcases List.mem_cons.mp hin with heq | hin
        · rw [← heq] at hcheck
          exact hcheck
        · exact ih hrest hin
  unfold checkJsonType at h
  rcases exists_of_bind_ok h with ⟨entries, hentries, hrest⟩
  rcases exists_of_bind_ok hrest with ⟨r, hr, _⟩
  rw [← Except.ok.inj hentries] at hr
  exact hloop fields r hr hmem

theorem isArray_of_checkProperty {v value : Json} {key : Text}
    {examples : List Json} (hkey : key.isEmpty = false)
    (h : checkProperty (some v) key (.arr examples) = .ok ())
    (hfield : v.field key = some value) (htruthy : value.truthy = true) :
    exists items, value = .arr items := by
  cases v with
  | obj fields =>
      have hown : propertyOf (some (.obj fields)) key =
          .ok (.own value) := by
        unfold propertyOf
        dsimp only
        rw [show fields.lookup key = some value from hfield]
      unfold checkProperty at h
      rw [if_neg (show ¬ (!(Json.arr examples).truthy) = true from
        Bool.false_ne_true), hkey, if_neg Bool.false_ne_true, hown] at h
      cases value with
      | arr items => exact ⟨items, rfl⟩
      | null => cases htruthy
      | bool b =>
          cases b with
          | false => cases htruthy
          | true => cases h
      | num n =>
          rw [ok_bind] at h
          dsimp only at h
          rw [htruthy] at h
          cases h
      | str s =>
          rw [ok_bind] at h
          dsimp only at h
          rw [htruthy] at h
          cases h
      | obj inner => cases h
  | null => cases hfield
  | bool b => cases hfield
  | num n => cases hfield
  | str s => cases hfield
  | arr items => cases hfield

structure ChoiceShape (w : Json) (used : List Json) : Prop where
  ne_null : w ≠ .null
  used_eq : w.field "usedEndpoints".toList = some (.arr used)
  used_ne : forall x, x ∈ used -> x ≠ .null
  unaddressed : forall value,
    w.field "unaddressedAPI".toList = some value -> value.truthy = true ->
    exists items, value = .arr items

theorem exists_choiceShape {numbers : NumberReader}
    {endpoints : List Endpoint} {topic : Topic} {answer : Value}
    (h : (choicesQuestion numbers endpoints topic).Accepts answer) :
    exists w used, answer = some w ∧ ChoiceShape w used := by
  have hvalid : validChoices numbers endpoints answer = .ok true := h.valid
  unfold validChoices at hvalid
  rcases exists_of_bind_ok hvalid with ⟨used, hused, hvalid1⟩
  rcases exists_of_bind_ok hvalid1 with ⟨unaddressed, _, hvalid2⟩
  rcases exists_of_bind_ok hvalid2 with ⟨someChosen, _, hvalid3⟩
  rcases read_eq_ok_iff.mp hused with ⟨w, hw, hne, hfield⟩
  cases someChosen with
  | false => cases hvalid3
  | true =>
      rw [if_pos rfl] at hvalid3
      unfold every at hvalid3
      split at hvalid3
      · rename_i items _
        refine ⟨w, items, hw, hne, hfield.symm, ?_, ?_⟩
        · intro x hx
          have hhas := forall_of_allM hvalid3 x hx
          unfold hasEndpoint at hhas
          rcases exists_of_bind_ok hhas with ⟨epName, hread, _⟩
          exact exists_read_iff.mp ⟨epName, hread⟩
        · intro value hvalue htruthy
          have hshape := h.shape rfl
          rw [hw] at hshape
          exact isArray_of_checkProperty rfl
            (checkProperty_of_shape hshape List.mem_cons_self) hvalue htruthy
      · cases hvalid3

/-- No element of `unaddressedAPI` is `null`. -/
def NoNull (answer : Value) : Prop :=
  forall x, x ∈ listed answer "unaddressedAPI" -> x ≠ .null

theorem purposesOf_ok_iff {numbers : NumberReader}
    {endpoints : List Endpoint} {topic : Topic} {answer : Value}
    (h : (choicesQuestion numbers endpoints topic).Accepts answer) :
    (exists purposes, purposesOf answer = .ok purposes) <-> NoNull answer := by
  rcases exists_choiceShape h with ⟨w, used, hw, hshape⟩
  have hlisted : listed answer "unaddressedAPI" =
      spread (w.field "unaddressedAPI".toList) := by
    rw [hw]
    rfl
  have hconcat : concat (w.field "unaddressedAPI".toList) (some (.arr used)) =
      .ok (spread (w.field "unaddressedAPI".toList) ++ used) := by
    unfold concat spread
    cases hfield : w.field "unaddressedAPI".toList with
    | none => rfl
    | some value =>
        cases htruthy : value.truthy with
        | false =>
            rw [Option.filter_some_neg htruthy]
            rfl
        | true =>
            rcases hshape.unaddressed value hfield htruthy with ⟨items, hitems⟩
            rw [hitems]
            rfl
  unfold purposesOf NoNull
  rw [hlisted, hw, read_of_ne_null hshape.ne_null, ok_bind,
    read_of_ne_null hshape.ne_null, ok_bind, hshape.used_eq, hconcat, ok_bind]
  unfold uniqueBy
  rw [uniqueFrom_ok_iff, List.forall_mem_append]
  exact and_iff_left hshape.used_ne

/-! ## Candidates -/

def OwnKeys {v : Type} (entries : List (Text × v)) : Prop :=
  forall key, (entries.lookup key).isSome = true -> isInherited key = false

theorem OwnKeys.set {v : Type} {entries : List (Text × v)}
    (h : OwnKeys entries) {key : Text} (hkey : isInherited key = false)
    (value : v) : OwnKeys (setEntry entries key value) := by
  intro other hother
  by_cases heq : other = key
  · rw [heq]
    exact hkey
  · rw [lookup_setEntry_of_ne heq] at hother
    exact h other hother

/-- The element names an endpoint for a purpose whose key is inherited. -/
def misplaced (x : Json) : Bool :=
  isTruthy (x.field "epName".toList) && isInherited (keyOf x)

theorem addChoice_ok_iff {numbers : NumberReader} {endpoints : List Endpoint}
    {c : Choices} (h : OwnKeys c.purposesSet) (x : Json) :
    (exists next, addChoice numbers endpoints c x = .ok next) <->
      misplaced x = false := by
  unfold addChoice misplaced
  dsimp only
  cases hfound : c.purposesSet.lookup (keyOf x) with
  | none =>
      cases hinherited : isInherited (keyOf x) with
      | true =>
          cases hname : isTruthy (x.field "epName".toList) with
          | true =>
              apply iff_of_false
              · intro hok
                rcases hok with ⟨next, hnext⟩
                cases hnext
              · intro hfalse
                cases hfalse
          | false => exact iff_of_true ⟨c, rfl⟩ rfl
      | false =>
          refine iff_of_true ?_ (Bool.and_false _)
          cases isTruthy (x.field "epName".toList) with
          | true => exact ⟨_, rfl⟩
          | false => exact ⟨_, rfl⟩
  | some p =>
      have hown := h (keyOf x) (by rw [hfound]; rfl)
      rw [hown]
      refine iff_of_true ?_ (Bool.and_false _)
      cases isTruthy (x.field "epName".toList) with
      | true => exact ⟨_, rfl⟩
      | false => exact ⟨_, rfl⟩

theorem ownKeys_addChoice {numbers : NumberReader} {endpoints : List Endpoint}
    {c next : Choices} {x : Json} (h : OwnKeys c.purposesSet)
    (hadd : addChoice numbers endpoints c x = .ok next) :
    OwnKeys next.purposesSet := by
  unfold addChoice at hadd
  dsimp only at hadd
  split at hadd
  · split at hadd
    · cases hadd
    · cases hadd
      exact h
  · rename_i hkey
    have hown : isInherited (keyOf x) = false := by
      cases hinherited : isInherited (keyOf x) with
      | false => rfl
      | true =>
          rw [hinherited, Bool.and_true, Option.isNone_iff_eq_none] at hkey
          cases hlookup : c.purposesSet.lookup (keyOf x) with
          | none => exact absurd hlookup hkey
          | some p =>
              rw [h (keyOf x) (by rw [hlookup]; rfl)] at hinherited
              cases hinherited
    split at hadd
    · cases hadd
      exact h.set hown _
    · cases hadd
      exact h.set hown _

theorem mergeChoices_ok_iff (numbers : NumberReader)
    (endpoints : List Endpoint) (purposes0 purposes1 : List Json) :
    (exists c, mergeChoices numbers endpoints purposes0 purposes1 = .ok c) <->
      forall x, x ∈ purposes1 ++ purposes0 -> misplaced x = false := by
  apply foldlM_ok_iff fun c : Choices => OwnKeys c.purposesSet
  · intro c x _ hc
    exact addChoice_ok_iff hc x
  · intro c x next _ hc hadd
    exact ownKeys_addChoice hc hadd
  · intro key hkey
    cases hkey

theorem throws_mergeChoices (numbers : NumberReader)
    (endpoints : List Endpoint) (purposes0 purposes1 : List Json) :
    Throws IsTypeError
      (mergeChoices numbers endpoints purposes0 purposes1) := by
  apply Throws.foldlM
  intro c x
  unfold addChoice
  dsimp only
  split
  · split
    · exact Throws.error rfl
    · exact Throws.ok _
  · split
    · exact Throws.ok _
    · exact Throws.ok _

def NotCrowded (elements : List Json) : Prop :=
  forall key, (elements.filter (isFor key)).length ≤ 2

theorem group_ok_iff {elements : List Json} {c : Choices}
    (h : Merged elements c) :
    (exists g, group (valuesOf c.purposesSet) = .ok g) <->
      NotCrowded elements := by
  constructor
  · intro hgroup
    rcases hgroup with ⟨g, hg⟩
    intro key
    cases hp : c.purposesSet.lookup key with
    | none =>
        rw [h.filter_of_lookup hp]
        exact Nat.zero_le 2
    | some p =>
        have hmem : p ∈ valuesOf c.purposesSet :=
          mem_valuesOf.mpr ⟨key, (lookup_iff_mem h.nodup).mp hp⟩
        have htwo := (grouped_group hg).two p hmem
        rw [(h.purposes key p hp).right, List.length_map] at htwo
        exact htwo
  · intro htwo
    apply exists_group
    intro p hp
    rcases mem_valuesOf.mp hp with ⟨key, hentry⟩
    rw [(h.purposes key p ((lookup_iff_mem h.nodup).mpr hentry)).right,
      List.length_map]
    exact htwo key

theorem throws_group (purposes : List Purpose) :
    Throws IsTypeError (group purposes) := by
  apply Throws.foldlM
  intro g p
  unfold addToGroup
  split
  · exact Throws.ok _
  · exact Throws.ok _
  · exact Throws.ok _
  · exact Throws.error rfl

/-- What the choices of two answers must not have. -/
structure Mergeable (elements : List Json) : Prop where
  placed : forall x, x ∈ elements -> misplaced x = false
  two : NotCrowded elements

theorem isFine_afterChoices_iff {numbers : NumberReader}
    {endpoints : List Endpoint} {topic : Topic} {purposes0 : List Json}
    {offered : List Endpoint} {answer : Value}
    (h : (choicesQuestion numbers offered topic).Accepts answer) :
    (Stage.orEnd
        (Stage.afterChoices numbers endpoints purposes0 answer)).IsFine <->
      NoNull answer ∧ forall purposes1, purposesOf answer = .ok purposes1 ->
        Mergeable (purposes1 ++ purposes0) := by
  rw [← purposesOf_ok_iff h]
  unfold Stage.afterChoices
  cases hpurposes : purposesOf answer with
  | error e =>
      apply iff_of_false
      · intro hfine
        exact Expected.not_isTypeError hfine
          (throws_purposesOf answer e hpurposes)
      · intro hok
        rcases hok.left with ⟨purposes, hok⟩
        cases hok
  | ok purposes1 =>
      have hmerge := mergeChoices_ok_iff numbers endpoints purposes0 purposes1
      rw [ok_bind, and_iff_right ⟨purposes1, rfl⟩]
      cases hc : mergeChoices numbers endpoints purposes0 purposes1 with
      | error e =>
          apply iff_of_false
          · intro hfine
            exact Expected.not_isTypeError hfine
              (throws_mergeChoices numbers endpoints purposes0 purposes1 e hc)
          · intro hall
            rcases hmerge.mpr (hall purposes1 rfl).placed with ⟨c, hok⟩
            rw [hc] at hok
            cases hok
      | ok c =>
          have hplaced := hmerge.mp ⟨c, hc⟩
          have hgroup := group_ok_iff (merged_mergeChoices hc)
          rw [ok_bind]
          unfold possibleGroups
          cases hg : group (valuesOf c.purposesSet) with
          | error e =>
              apply iff_of_false
              · intro hfine
                exact Expected.not_isTypeError hfine (throws_group _ e hg)
              · intro hall
                rcases hgroup.mpr (hall purposes1 rfl).two with ⟨g, hok⟩
                rw [hg] at hok
                cases hok
          | ok g =>
              apply iff_of_true
              · rw [ok_bind]
                split
                · show (Stage.orEnd (if _ then _ else _)).IsFine
                  split
                  · exact True.intro
                  · exact True.intro
                · exact Expected.impossible g.impossible
              · intro purposes hpurposes'
                rw [← Except.ok.inj hpurposes']
                exact ⟨hplaced, hgroup.mp ⟨g, hg⟩⟩

/-! ## Hints that are read -/

/-- What is said of the user is there for every argument. -/
def Readable (hints : List PurposeHints) : Prop :=
  forall h, h ∈ hints -> forall arg, arg ∈ h.args ->
    Json.isNullish arg.fromUser = false

theorem isNullish_of_read {v value : Value} {key : String}
    (h : read v key = .ok value) : Json.isNullish v = false := by
  rcases read_eq_ok_iff.mp h with ⟨w, hw, hne, _⟩
  rw [hw]
  cases w with
  | null => exact absurd rfl hne
  | bool b => rfl
  | num n => rfl
  | str s => rfl
  | arr items => rfl
  | obj fields => rfl

theorem read_of_not_nullish {v : Value} (h : Json.isNullish v = false)
    (key : String) : read v key = .ok (readSome v key) := by
  cases v with
  | none => cases h
  | some w =>
      apply read_of_ne_null
      intro hnull
      rw [hnull] at h
      cases h

theorem every_eq_true {v : Value} {f : Json -> Except Thrown Bool}
    (h : every v f = .ok true) :
    exists items, v = some (.arr items) ∧
      forall x, x ∈ items -> f x = .ok true := by
  unfold every at h
  split at h
  · rename_i items
    exact ⟨items, rfl, forall_of_allM h⟩
  · cases h

theorem readHint_of_check {params : ParamTable} {epName : Text} {arg : Json}
    (h : checkArgument params epName arg = .ok true) :
    exists hint, readHint arg = .ok hint ∧
      Json.isNullish hint.fromUser = false := by
  unfold checkArgument at h
  rcases exists_of_bind_ok h with ⟨argName, hread, h1⟩
  rcases exists_of_bind_ok h1 with ⟨text, _, h2⟩
  rcases exists_of_bind_ok h2 with ⟨found, _, h3⟩
  dsimp only at h3
  split at h3
  · cases h3
  · rcases exists_of_bind_ok h3 with ⟨sourced, hsource, h4⟩
    have hne := exists_read_iff.mp ⟨argName, hread⟩
    unfold readHint
    rw [read_of_ne_null hne]
    refine ⟨_, rfl, ?_⟩
    unfold hasSource at hsource
    dsimp only at hsource ⊢
    split at hsource
    · rename_i hflag
      cases hfromUser : arg.field fromUserKey.toList with
      | none =>
          rw [hfromUser] at hflag
          cases hflag
      | some v =>
          rw [hfromUser] at hflag
          cases v with
          | null => cases hflag
          | bool b => rfl
          | num n => rfl
          | str s => rfl
          | arr items => rfl
          | obj fields => rfl
    · rcases exists_of_bind_ok hsource with ⟨needConfirm, hneed, _⟩
      exact isNullish_of_read hneed

theorem readPurpose_of_check {numbers : NumberReader}
    {endpoints : List (Option Endpoint)} {purposes : List UsedEndpoint}
    {item : Json}
    (h : checkPurpose numbers endpoints purposes item = .ok true) :
    exists hints, readPurpose item = .ok hints ∧
      forall arg, arg ∈ hints.args ->
        Json.isNullish arg.fromUser = false := by
  unfold checkPurpose at h
  rcases exists_of_bind_ok h with ⟨purposeKey, hkey, h1⟩
  rcases exists_of_bind_ok h1 with ⟨args, hargs, h2⟩
  split at h2
  · cases h2
  · rcases exists_of_bind_ok h2 with ⟨found, _, h3⟩
    split at h3
    · cases h3
    · rcases exists_of_bind_ok h3 with ⟨params, _, h4⟩
      rcases every_eq_true h4 with ⟨items, hitems, hall⟩
      rcases exists_mapM (f := readHint)
        (fun arg hmem => readHint_of_check (hall arg hmem)) with
        ⟨hints, hmap, hreadable⟩
      refine ⟨⟨purposeKey, hints⟩, ?_, hreadable⟩
      unfold readPurpose
      rw [hkey, ok_bind, hargs, ok_bind, hitems]
      unfold elementsOf
      rw [ok_bind, hmap]
      rfl

theorem exists_hints_of_valid {numbers : NumberReader}
    {endpoints : List (Option Endpoint)} {purposes : List UsedEndpoint}
    {answer : Value}
    (h : validHints numbers endpoints purposes answer = .ok true) :
    exists hints, readHints answer = .ok hints ∧ Readable hints := by
  rcases every_eq_true h with ⟨items, hitems, hall⟩
  rcases exists_mapM (f := readPurpose)
    (fun item hmem => readPurpose_of_check (hall item hmem)) with
    ⟨hints, hmap, hreadable⟩
  refine ⟨hints, ?_, hreadable⟩
  unfold readHints
  rw [hitems]
  exact hmap

/-! ## Hints that are asked for again -/

def ArgHint.asks (arg : ArgHint) : Bool :=
  arg.flag && arg.needConfirm

def ArgHint.misses (arg : ArgHint) : Bool :=
  isTruthy arg.mapping && !arg.needConfirm &&
    isTruthy (readSome (readSome arg.mapping "conversion") "missing")

section PushUnder

variable {a : Type} {groups : List (Text × KeyGroup a)}

theorem pushUnder_ok_iff (h : OwnKeys groups) (purposeKey : Value) (x : a) :
    (exists next, pushUnder groups purposeKey x = .ok next) <->
      isInherited (displayText purposeKey) = false := by
  unfold pushUnder
  cases hlookup : groups.lookup (displayText purposeKey) with
  | some g =>
      apply iff_of_true ⟨_, rfl⟩
      exact h _ (by rw [hlookup]; rfl)
  | none =>
      dsimp only
      cases isInherited (displayText purposeKey) with
      | true =>
          apply iff_of_false
          · intro hok
            rcases hok with ⟨next, hnext⟩
            cases hnext
          · intro hfalse
            cases hfalse
      | false => exact iff_of_true ⟨_, rfl⟩ rfl

theorem ownKeys_pushUnder (h : OwnKeys groups) {purposeKey : Value} {x : a}
    {next : List (Text × KeyGroup a)}
    (hpush : pushUnder groups purposeKey x = .ok next) : OwnKeys next := by
  have hown := (pushUnder_ok_iff h purposeKey x).mp ⟨next, hpush⟩
  unfold pushUnder at hpush
  split at hpush
  · cases hpush
    exact h.set hown _
  · rw [hown, if_neg Bool.false_ne_true] at hpush
    cases hpush
    exact h.set hown _

theorem setEntry_ne_nil {v : Type} (entries : List (Text × v)) (key : Text)
    (value : v) : setEntry entries key value ≠ [] := by
  intro hnil
  have hlookup := lookup_setEntry_self entries key value
  rw [hnil] at hlookup
  cases hlookup

theorem ne_nil_of_pushUnder {purposeKey : Value} {x : a}
    {next : List (Text × KeyGroup a)}
    (h : pushUnder groups purposeKey x = .ok next) : next ≠ [] := by
  unfold pushUnder at h
  split at h
  · cases h
    exact setEntry_ne_nil _ _ _
  · split at h
    · cases h
    · cases h
      exact setEntry_ne_nil _ _ _

theorem throws_pushUnder (purposeKey : Value) (x : a) :
    Throws IsTypeError (pushUnder groups purposeKey x) := by
  unfold pushUnder
  split
  · exact Throws.ok _
  · split
    · exact Throws.error rfl
    · exact Throws.ok _

end PushUnder

/-- The mapping is there, unless the user is asked; what is uncertain stands
under a key of its own. -/
structure ArgHint.Confirmable (key : Text) (arg : ArgHint) : Prop where
  mapped : arg.asks = false -> Json.isNullish arg.mapping = false
  own : arg.isUncertain = .ok true -> isInherited key = false

theorem throws_isUncertain (arg : ArgHint) :
    Throws IsTypeError arg.isUncertain := by
  unfold ArgHint.isUncertain
  split
  · exact Throws.ok _
  · exact Throws.bind (throws_read _ _) fun _ _ => Throws.ok _

theorem isUncertain_ok_iff (arg : ArgHint) :
    (exists uncertain, arg.isUncertain = .ok uncertain) <->
      (arg.asks = false -> Json.isNullish arg.mapping = false) := by
  unfold ArgHint.isUncertain ArgHint.asks
  cases arg.flag && arg.needConfirm with
  | true =>
      apply iff_of_true ⟨true, rfl⟩
      intro hfalse
      cases hfalse
  | false =>
      rw [if_neg Bool.false_ne_true]
      constructor
      · intro h
        rcases h with ⟨uncertain, huncertain⟩
        rcases exists_of_bind_ok huncertain with ⟨value, hread, _⟩
        exact fun _ => isNullish_of_read hread
      · intro h
        rw [read_of_not_nullish (h rfl)]
        exact ⟨_, rfl⟩

section AddUncertain

variable {purposeKey : Value} {groups next : List (Text × KeyGroup Value)}
  {arg : ArgHint}

theorem addUncertain_ok_iff (h : OwnKeys groups) :
    (exists next, addUncertain purposeKey groups arg = .ok next) <->
      arg.Confirmable (displayText purposeKey) := by
  unfold addUncertain
  cases huncertain : arg.isUncertain with
  | error e =>
      apply iff_of_false
      · intro hok
        rcases hok with ⟨next, hnext⟩
        cases hnext
      · intro hconfirmable
        rcases (isUncertain_ok_iff arg).mpr hconfirmable.mapped with
          ⟨uncertain, hok⟩
        rw [huncertain] at hok
        cases hok
  | ok uncertain =>
      have hmapped := (isUncertain_ok_iff arg).mp ⟨uncertain, huncertain⟩
      rw [ok_bind]
      cases uncertain with
      | true =>
          rw [if_pos rfl, pushUnder_ok_iff h]
          constructor
          · intro hown
            exact ⟨hmapped, fun _ => hown⟩
          · intro hconfirmable
            exact hconfirmable.own huncertain
      | false =>
          apply iff_of_true ⟨groups, rfl⟩
          constructor
          · exact hmapped
          · intro htrue
            rw [huncertain] at htrue
            cases htrue

theorem addUncertain_cases (h : addUncertain purposeKey groups arg = .ok next) :
    (arg.isUncertain = .ok true ∧
        pushUnder groups purposeKey arg.argName = .ok next) ∨
      (arg.isUncertain = .ok false ∧ next = groups) := by
  unfold addUncertain at h
  rcases exists_of_bind_ok h with ⟨uncertain, huncertain, hnext⟩
  cases uncertain with
  | true => exact Or.inl ⟨huncertain, hnext⟩
  | false => exact Or.inr ⟨huncertain, (Except.ok.inj hnext).symm⟩

theorem ownKeys_addUncertain (h : OwnKeys groups)
    (hadd : addUncertain purposeKey groups arg = .ok next) : OwnKeys next := by
  rcases addUncertain_cases hadd with ⟨_, hpush⟩ | ⟨_, hnext⟩
  · exact ownKeys_pushUnder h hpush
  · rw [hnext]
    exact h

theorem nil_addUncertain_iff
    (hadd : addUncertain purposeKey groups arg = .ok next) :
    next = [] <-> groups = [] ∧ arg.isUncertain ≠ .ok true := by
  rcases addUncertain_cases hadd with ⟨huncertain, hpush⟩ | ⟨hcertain, hnext⟩
  · apply iff_of_false (ne_nil_of_pushUnder hpush)
    intro h
    exact h.right huncertain
  · rw [hnext, hcertain]
    apply (and_iff_left _).symm
    intro h
    cases h

end AddUncertain

def ForArgs (p : Text -> ArgHint -> Prop) (hints : List PurposeHints) : Prop :=
  forall h, h ∈ hints -> forall arg, arg ∈ h.args ->
    p (displayText h.purposeKey) arg

theorem throws_reConfirmArgs (hints : List PurposeHints) :
    Throws IsTypeError (reConfirmArgs hints) := by
  unfold reConfirmArgs
  apply Throws.bind
  · apply Throws.foldlM
    intro groups h
    apply Throws.foldlM
    intro groups arg
    unfold addUncertain
    apply Throws.bind (throws_isUncertain arg)
    intro uncertain _
    split
    · exact throws_pushUnder _ _
    · exact Throws.ok _
  · exact fun _ _ => Throws.ok _

theorem reConfirmArgs_ok_iff (hints : List PurposeHints) :
    (exists again, reConfirmArgs hints = .ok again) <->
      ForArgs (fun key arg => arg.Confirmable key) hints := by
  have hfold : (exists groups, hints.foldlM (fun groups h =>
      h.args.foldlM (addUncertain h.purposeKey) groups)
        ([] : List (Text × KeyGroup Value)) = .ok groups) <->
      ForArgs (fun key arg => arg.Confirmable key) hints := by
    apply foldlM_ok_iff OwnKeys
    · intro groups h _ hown
      apply foldlM_ok_iff OwnKeys _ _ _ hown
      · intro groups arg _ hown
        exact addUncertain_ok_iff hown
      · intro groups arg next _ hown hadd
        exact ownKeys_addUncertain hown hadd
    · intro groups h next _ hown hargs
      apply foldlM_invariant OwnKeys _ hown hargs
      intro groups arg next _ hown hadd
      exact ownKeys_addUncertain hown hadd
    · intro key hkey
      cases hkey
  rw [← hfold]
  unfold reConfirmArgs
  constructor
  · intro h
    rcases h with ⟨again, hagain⟩
    rcases exists_of_bind_ok hagain with ⟨groups, hgroups, _⟩
    exact ⟨groups, hgroups⟩
  · intro h
    rcases h with ⟨groups, hgroups⟩
    rw [hgroups]
    exact ⟨_, rfl⟩

theorem reConfirmArgs_nil_iff {hints : List PurposeHints}
    {again : List ReConfirm} (h : reConfirmArgs hints = .ok again) :
    again = [] <-> ForArgs (fun _ arg => arg.isUncertain ≠ .ok true) hints := by
  unfold reConfirmArgs at h
  rcases exists_of_bind_ok h with ⟨groups, hgroups, hagain⟩
  have hnil : groups = [] <->
      ForArgs (fun _ arg => arg.isUncertain ≠ .ok true) hints := by
    apply foldlM_history (fun taken groups => groups = [] <->
      ForArgs (fun _ arg => arg.isUncertain ≠ .ok true) taken) _ _ hgroups
    · intro taken groups h next htaken hargs
      have hinner : next = [] <-> groups = [] ∧
          forall arg, arg ∈ h.args -> arg.isUncertain ≠ .ok true := by
        apply foldlM_history (fun args state => state = [] <-> groups = [] ∧
          forall arg, arg ∈ args -> arg.isUncertain ≠ .ok true) _ _ hargs
        · intro args state arg next hargs hadd
          rw [nil_addUncertain_iff hadd, hargs, List.forall_mem_append,
            List.forall_mem_singleton, and_assoc]
        · exact (and_iff_left fun _ hmem => (nomatch hmem)).symm
      unfold ForArgs
      rw [hinner, htaken, List.forall_mem_append, List.forall_mem_singleton]
      rfl
    · exact iff_of_true rfl fun _ hmem => (nomatch hmem)
  rw [← hnil, ← Except.ok.inj hagain, List.map_eq_nil_iff,
    ← List.length_eq_zero_iff, (valuesOf_perm groups).length_eq,
    List.length_map, List.length_eq_zero_iff]

/-! ## Hints that are cleared -/

/-- What is to be asked or is missing stands under a key of its own. -/
def ArgHint.Clearable (key : Text) (arg : ArgHint) : Prop :=
  arg.asks = true ∨ arg.misses = true -> isInherited key = false

structure OwnFindings (found : Findings) : Prop where
  needConfirms : OwnKeys found.needConfirms
  mismatches : OwnKeys found.mismatches

theorem lookup_filter_ne {v : Type} {key other : Text} (h : other ≠ key)
    (entries : List (Text × v)) :
    (entries.filter fun entry => entry.1 != key).lookup other =
      entries.lookup other := by
  induction entries with
  | nil => rfl
  | cons entry rest ih =>
      rcases entry with ⟨k, value⟩
      by_cases hk : k = key
      · have hdrop : ¬ (k != key) = true := by
          rw [hk, bne_self_eq_false]
          exact Bool.false_ne_true
        rw [List.filter_cons, if_neg hdrop, ih, List.lookup_cons,
          beq_false_of_ne fun heq => h (heq.trans hk)]
      · rw [List.filter_cons, if_pos (bne_iff_ne.mpr hk), List.lookup_cons,
          List.lookup_cons, ih]

theorem readSome_deleteField {key other : String}
    (h : other.toList ≠ key.toList) (v : Value) :
    readSome (deleteField v key) other = readSome v other := by
  cases v with
  | none => rfl
  | some w =>
      cases w with
      | obj fields => exact lookup_filter_ne h fields
      | null => rfl
      | bool b => rfl
      | num n => rfl
      | str s => rfl
      | arr items => rfl

section Clear

variable {purposeKey : Value} {found : Findings} {arg : ArgHint}

theorem clearFromUser_ok_iff (h : OwnFindings found) :
    (exists result, clearFromUser purposeKey found arg = .ok result) <->
      (arg.asks = true -> isInherited (displayText purposeKey) = false) := by
  unfold clearFromUser ArgHint.asks
  cases arg.flag with
  | false =>
      apply iff_of_true ⟨_, rfl⟩
      intro hfalse
      cases hfalse
  | true =>
      rw [if_pos rfl, Bool.true_and]
      cases arg.needConfirm with
      | false =>
          apply iff_of_true ⟨_, rfl⟩
          intro hfalse
          cases hfalse
      | true =>
          rw [if_pos rfl]
          have hpush := pushUnder_ok_iff h.needConfirms purposeKey
            (arg.argName, readSome arg.fromUser "needConfirm")
          constructor
          · intro hok _
            rcases hok with ⟨result, hresult⟩
            rcases exists_of_bind_ok hresult with ⟨next, hnext, _⟩
            exact hpush.mp ⟨next, hnext⟩
          · intro hown
            rcases hpush.mpr (hown rfl) with ⟨next, hnext⟩
            rw [hnext]
            exact ⟨_, rfl⟩

theorem clearFromUser_spec {result : Findings × ArgHint} (h : OwnFindings found)
    (hclear : clearFromUser purposeKey found arg = .ok result) :
    OwnFindings result.1 ∧ result.2.mapping = arg.mapping := by
  unfold clearFromUser at hclear
  split at hclear
  · split at hclear
    · rcases exists_of_bind_ok hclear with ⟨next, hnext, hresult⟩
      cases hresult
      exact ⟨⟨ownKeys_pushUnder h.needConfirms hnext, h.mismatches⟩, rfl⟩
    · cases hclear
      exact ⟨h, rfl⟩
  · cases hclear
    exact ⟨h, rfl⟩

variable {fromUser : Value}

theorem clearMapping_ok_iff (h : OwnFindings found)
    (hread : Json.isNullish fromUser = false) :
    (exists result, clearMapping purposeKey fromUser found arg =
        .ok result) <->
      ((isTruthy arg.mapping && !isTruthy (readSome fromUser "needConfirm") &&
          isTruthy (readSome (readSome arg.mapping "conversion") "missing")) =
        true -> isInherited (displayText purposeKey) = false) := by
  unfold clearMapping
  cases isTruthy arg.mapping with
  | false =>
      apply iff_of_true ⟨_, rfl⟩
      intro hfalse
      cases hfalse
  | true =>
      rw [if_neg (show ¬ (!true) = true from Bool.false_ne_true)]
      dsimp only
      rw [read_of_not_nullish hread, ok_bind, Bool.true_and,
        readSome_deleteField (show "conversion".toList ≠ "mismatch".toList
          from by decide)]
      cases !isTruthy (readSome fromUser "needConfirm") &&
          isTruthy (readSome (readSome arg.mapping "conversion") "missing") with
      | false =>
          apply iff_of_true ⟨_, rfl⟩
          intro hfalse
          cases hfalse
      | true =>
          rw [if_pos rfl]
          have hpush := pushUnder_ok_iff h.mismatches purposeKey
            { arg with mapping := deleteField arg.mapping "mismatch" }
          constructor
          · intro hok _
            rcases hok with ⟨result, hresult⟩
            rcases exists_of_bind_ok hresult with ⟨next, hnext, _⟩
            exact hpush.mp ⟨next, hnext⟩
          · intro hown
            rcases hpush.mpr (hown rfl) with ⟨next, hnext⟩
            rw [hnext]
            exact ⟨_, rfl⟩

theorem ownFindings_clearMapping {result : Findings × ArgHint}
    (h : OwnFindings found)
    (hclear : clearMapping purposeKey fromUser found arg = .ok result) :
    OwnFindings result.1 := by
  unfold clearMapping at hclear
  split at hclear
  · cases hclear
    exact h
  · rcases exists_of_bind_ok hclear with ⟨needConfirm, _, h1⟩
    split at h1
    · rcases exists_of_bind_ok h1 with ⟨next, hnext, hresult⟩
      cases hresult
      exact ⟨h.needConfirms, ownKeys_pushUnder h.mismatches hnext⟩
    · cases h1
      exact h

theorem mapping_clearFromAPI (arg : ArgHint) :
    (clearFromAPI arg).mapping = arg.mapping := by
  unfold clearFromAPI
  split
  · rfl
  · rfl

variable {cleared : List ArgHint}

theorem clearArg_ok_iff (h : OwnFindings found)
    (hread : Json.isNullish arg.fromUser = false) :
    (exists result, clearArg purposeKey (found, cleared) arg = .ok result) <->
      arg.Clearable (displayText purposeKey) := by
  have hfirst := @clearFromUser_ok_iff purposeKey found arg h
  unfold clearArg
  cases hclear : clearFromUser purposeKey found arg with
  | error e =>
      apply iff_of_false
      · intro hok
        rcases hok with ⟨result, hresult⟩
        cases hresult
      · intro hclearable
        rcases hfirst.mpr fun hasks => hclearable (Or.inl hasks) with
          ⟨result, hresult⟩
        rw [hclear] at hresult
        cases hresult
  | ok first =>
      rcases first with ⟨found', cleared'⟩
      rcases clearFromUser_spec h hclear with ⟨hown, hmapping⟩
      have hasks := hfirst.mp ⟨_, hclear⟩
      have hsecond := @clearMapping_ok_iff purposeKey found'
        (clearFromAPI cleared') arg.fromUser hown hread
      rw [mapping_clearFromAPI, show cleared'.mapping = arg.mapping from
        hmapping] at hsecond
      have hmisses : (exists result, clearMapping purposeKey arg.fromUser
          found' (clearFromAPI cleared') = .ok result) <->
          (arg.misses = true -> isInherited (displayText purposeKey) = false) :=
        hsecond
      rw [ok_bind]
      dsimp only
      constructor
      · intro hok
        rcases hok with ⟨result, hresult⟩
        rcases exists_of_bind_ok hresult with ⟨second, hnext, _⟩
        intro hor
        rcases hor with hask | hmiss
        · exact hasks hask
        · exact hmisses.mp ⟨second, hnext⟩ hmiss
      · intro hclearable
        rcases hmisses.mpr fun hmiss => hclearable (Or.inr hmiss) with
          ⟨second, hnext⟩
        rw [hnext]
        exact ⟨_, rfl⟩

theorem ownFindings_clearArg {result : Findings × List ArgHint}
    (h : OwnFindings found)
    (hclear : clearArg purposeKey (found, cleared) arg = .ok result) :
    OwnFindings result.1 := by
  unfold clearArg at hclear
  rcases exists_of_bind_ok hclear with ⟨first, hfirst, h1⟩
  rcases exists_of_bind_ok h1 with ⟨second, hsecond, hresult⟩
  cases hresult
  exact ownFindings_clearMapping (clearFromUser_spec h hfirst).left hsecond

theorem throws_clearArg (state : Findings × List ArgHint) :
    Throws IsTypeError (clearArg purposeKey state arg) := by
  unfold clearArg clearFromUser clearMapping
  apply Throws.bind
  · split
    · split
      · exact Throws.bind (throws_pushUnder _ _) fun _ _ => Throws.ok _
      · exact Throws.ok _
    · exact Throws.ok _
  · intro first _
    apply Throws.bind
    · split
      · exact Throws.ok _
      · apply Throws.bind (throws_read _ _)
        intro needConfirm _
        split
        · exact Throws.bind (throws_pushUnder _ _) fun _ _ => Throws.ok _
        · exact Throws.ok _
    · exact fun _ _ => Throws.ok _

end Clear

theorem isFine_clearHints_iff {hints : List PurposeHints}
    (hread : Readable hints) :
    (Stage.ended (clearHints hints)).IsFine <->
      ForArgs (fun key arg => arg.Clearable key) hints := by
  have hfold : (exists result, hints.foldlM clearPurpose (⟨[], []⟩, []) =
      .ok result) <-> ForArgs (fun key arg => arg.Clearable key) hints := by
    have hinner : forall (h : PurposeHints) (found : Findings), h ∈ hints ->
        OwnFindings found ->
        ((exists result, h.args.foldlM (clearArg h.purposeKey) (found, []) =
          .ok result) <-> forall arg, arg ∈ h.args ->
            arg.Clearable (displayText h.purposeKey)) := by
      intro h found hmem hown
      apply foldlM_ok_iff fun state : Findings × List ArgHint =>
        OwnFindings state.1
      · intro state arg harg hstate
        exact clearArg_ok_iff hstate (hread h hmem arg harg)
      · intro state arg next _ hstate hclear
        exact ownFindings_clearArg hstate hclear
      · exact hown
    apply foldlM_ok_iff fun state : Findings × List PurposeHints =>
      OwnFindings state.1
    · intro state h hmem hstate
      rw [← hinner h state.1 hmem hstate]
      constructor
      · intro hok
        rcases hok with ⟨next, hnext⟩
        rcases exists_of_bind_ok hnext with ⟨result, hresult, _⟩
        exact ⟨result, hresult⟩
      · intro hok
        rcases hok with ⟨result, hresult⟩
        unfold clearPurpose
        rw [hresult]
        exact ⟨_, rfl⟩
    · intro state h next _ hstate hclear
      rcases exists_of_bind_ok hclear with ⟨result, hresult, hnext⟩
      cases hnext
      apply foldlM_invariant (fun inner : Findings × List ArgHint =>
        OwnFindings inner.1) _ hstate hresult
      intro inner arg next _ hinner hclear
      exact ownFindings_clearArg hinner hclear
    · constructor
      · intro key hkey
        cases hkey
      · intro key hkey
        cases hkey
  rw [← hfold]
  unfold clearHints
  cases hstate : hints.foldlM clearPurpose (⟨[], []⟩, []) with
  | error e =>
      apply iff_of_false
      · intro hfine
        apply Expected.not_isTypeError hfine
        apply Throws.foldlM _ _ _ e hstate
        intro state h
        apply Throws.bind
        · exact Throws.foldlM (fun state arg => throws_clearArg state) _ _
        · exact fun _ _ => Throws.ok _
      · intro hok
        rcases hok with ⟨result, hresult⟩
        cases hresult
  | ok result =>
      apply iff_of_true _ ⟨result, rfl⟩
      rw [ok_bind]
      dsimp only
      split
      · exact Expected.conversion
      · split
        · exact Expected.unclear _
        · exact True.intro

end Agents
end CallgentApi
