import CallgentApi.Agents.Schema

/-!
# Paths in a schema

Which paths a schema has, read off its keywords, and for which schemas the
search finds exactly these.
-/

namespace CallgentApi
namespace Agents

open Js Event

/-! ## Schemas and their paths -/

/-- A schema of an OpenAPI document: a combination of at least one schema, an
array, an object, or any other value with a description. -/
inductive IsSchema : Json -> Prop where
  | any {s : Json} {l : List Json} (h : shapeOf s = .any l) (hne : l ≠ [])
      (hparts : forall x, x ∈ l -> IsSchema x) : IsSchema s
  | all {s : Json} {l : List Json} (h : shapeOf s = .all l) (hne : l ≠ [])
      (hparts : forall x, x ∈ l -> IsSchema x) : IsSchema s
  | array {s : Json} {items : Value} (h : shapeOf s = .items items)
      (hitems : forall x, items = some x -> IsSchema x) : IsSchema s
  | object {s : Json} {fields : List (Text × Json)}
      (h : shapeOf s = .names true (.obj fields))
      (hfields : forall key x, fields.lookup key = some x -> IsSchema x) :
      IsSchema s
  | bare {s : Json} (h : shapeOf s = .nothing) : IsSchema s
  | plain {fields : List (Text × Json)} {v : Json}
      (h : shapeOf (.obj fields) = .names false v) : IsSchema (.obj fields)

inductive Resolves : Json -> List Text -> Prop where
  | here {s : Json} (h : isObject s = true) : Resolves s []
  | any {s x : Json} {l : List Json} {p : List Text} (h : shapeOf s = .any l)
      (hx : x ∈ l) (hpath : Resolves x p) : Resolves s p
  | all {s : Json} {l : List Json} {p : List Text} (h : shapeOf s = .all l)
      (hpath : forall x, x ∈ l -> Resolves x p) : Resolves s p
  | items {s x : Json} {p : List Text} (h : shapeOf s = .items (some x))
      (hpath : Resolves x p) : Resolves s p
  | property {s x : Json} {fields : List (Text × Json)} {name : Text}
      {p : List Text} (h : shapeOf s = .names true (.obj fields))
      (hname : fields.lookup name = some x) (hpath : Resolves x p) :
      Resolves s (name :: p)

inductive Looks : Json -> Prop where
  | any {s x : Json} {l : List Json} (h : shapeOf s = .any l) (hx : x ∈ l)
      (hlooks : Looks x) : Looks s
  | all {s x : Json} {l : List Json} (h : shapeOf s = .all (x :: l))
      (hlooks : Looks x) : Looks s
  | items {s x : Json} (h : shapeOf s = .items (some x)) (hlooks : Looks x) :
      Looks s
  | names {s v : Json} {properties : Bool}
      (h : shapeOf s = .names properties v) : Looks s

/-- The names of paths; `__proto__` may be left out. -/
def IsName (proto : Bool) (name : Text) : Prop :=
  proto = true ∨ name ≠ "__proto__".toList

def IsPath (proto : Bool) (p : List Text) : Prop :=
  forall name, name ∈ p -> IsName proto name

def Target.found : Target -> Bool
  | .value (some v) => isObject v
  | .value none => false
  | .prototype _ => true

/-- Of the alternatives, only the last looks names up; what the first member
of an `allOf` has, the others have; and no name is found that is not
declared. -/
inductive Sound (proto : Bool) : Json -> Prop where
  | any {s : Json} {front : List Json} {last : Json}
      (h : shapeOf s = .any (front ++ [last]))
      (hfront : forall x, x ∈ front -> ¬ Looks x)
      (hlast : Sound proto last) : Sound proto s
  | all {s first : Json} {l : List Json} (h : shapeOf s = .all (first :: l))
      (hfirst : Sound proto first)
      (hothers : forall x, x ∈ l -> forall p, IsPath proto p ->
        Resolves first p -> Resolves x p) : Sound proto s
  | array {s : Json} {items : Value} (h : shapeOf s = .items items)
      (hitems : forall x, items = some x -> Sound proto x) : Sound proto s
  | object {s : Json} {fields : List (Text × Json)}
      (h : shapeOf s = .names true (.obj fields))
      (hproto : proto = true -> fields.lookup "__proto__".toList ≠ none)
      (hfields : forall key x, IsName proto key ->
        fields.lookup key = some x -> Sound proto x) : Sound proto s
  | bare {s : Json} (h : shapeOf s = .nothing) : Sound proto s
  | plain {s v : Json} (h : shapeOf s = .names false v)
      (hnames : forall name, IsName proto name ->
        (propertyAt v name).found = false) : Sound proto s

def Accepts (s : Json) (p : List Text) : Prop :=
  exists left, hasOpenAPIProperty s p = .ok (true, left)

/-! ## Schemas are objects -/

theorem isObject_of_shape {s : Json}
    (h : forall v, shapeOf s ≠ .names false v) : isObject s = true := by
  cases s with
  | obj fields => rfl
  | arr items => rfl
  | null => exact absurd rfl (h .null)
  | bool b => exact absurd rfl (h (.bool b))
  | num n => exact absurd rfl (h (.num n))
  | str text => exact absurd rfl (h (.str text))

theorem IsSchema.isObject {s : Json} (hs : IsSchema s) :
    isObject s = true := by
  cases hs with
  | any h hne hparts =>
      apply isObject_of_shape
      intro v hv
      rw [h] at hv
      cases hv
  | all h hne hparts =>
      apply isObject_of_shape
      intro v hv
      rw [h] at hv
      cases hv
  | array h hitems =>
      apply isObject_of_shape
      intro v hv
      rw [h] at hv
      cases hv
  | object h hfields =>
      apply isObject_of_shape
      intro v hv
      rw [h] at hv
      cases hv
  | bare h =>
      apply isObject_of_shape
      intro v hv
      rw [h] at hv
      cases hv
  | plain h => rfl

theorem IsSchema.parts {s : Json} (hs : IsSchema s) :
    match shapeOf s with
    | .any l => l ≠ [] ∧ forall x, x ∈ l -> IsSchema x
    | .all l => l ≠ [] ∧ forall x, x ∈ l -> IsSchema x
    | .items items => forall x, items = some x -> IsSchema x
    | .names true (.obj fields) =>
        forall key x, fields.lookup key = some x -> IsSchema x
    | _ => True := by
  cases hs with
  | any h hne hparts =>
      rw [h]
      exact ⟨hne, hparts⟩
  | all h hne hparts =>
      rw [h]
      exact ⟨hne, hparts⟩
  | array h hitems =>
      rw [h]
      exact hitems
  | object h hfields =>
      rw [h]
      exact hfields
  | bare h =>
      rw [h]
      exact True.intro
  | plain h =>
      rw [h]
      exact True.intro

/-! ## Loops over schemas -/

section Loops

variable {x : Json} {l : List Json} {p left : List Text}

theorem someHas_of_true (h : hasOpenAPIProperty x p = .ok (true, left))
    (l : List Json) : someHas (x :: l) p = .ok (true, left) := by
  rw [someHas, h]

theorem someHas_of_false (h : hasOpenAPIProperty x p = .ok (false, left))
    (l : List Json) : someHas (x :: l) p = someHas l left := by
  rw [someHas, h]

theorem everyHas_of_true (h : hasOpenAPIProperty x p = .ok (true, left))
    (l : List Json) : everyHas (x :: l) p = everyHas l left := by
  rw [everyHas, h]

theorem everyHas_of_false (h : hasOpenAPIProperty x p = .ok (false, left))
    (l : List Json) : everyHas (x :: l) p = .ok (false, left) := by
  rw [everyHas, h]

theorem someHas_nil (hl : l ≠ []) (hparts : forall x, x ∈ l -> IsSchema x) :
    someHas l [] = .ok (true, []) := by
  cases l with
  | nil => exact absurd rfl hl
  | cons x l =>
      exact someHas_of_true
        (has_nil (hparts x List.mem_cons_self).isObject) l

theorem everyHas_nil (hparts : forall x, x ∈ l -> IsSchema x) :
    everyHas l [] = .ok (true, []) := by
  induction l with
  | nil => rw [everyHas]
  | cons x l ih =>
      rw [everyHas_of_true (has_nil (hparts x List.mem_cons_self).isObject)]
      exact ih fun y hy => hparts y (List.mem_cons_of_mem x hy)

theorem someHas_append {front : List Json}
    (hfront : forall x, x ∈ front -> hasOpenAPIProperty x p = .ok (false, p))
    (back : List Json) : someHas (front ++ back) p = someHas back p := by
  induction front with
  | nil => rfl
  | cons x front ih =>
      rw [List.cons_append, someHas_of_false (hfront x List.mem_cons_self)]
      exact ih fun y hy => hfront y (List.mem_cons_of_mem x hy)

theorem someHas_singleton (x : Json) (p : List Text) :
    someHas [x] p = hasOpenAPIProperty x p := by
  rw [someHas]
  cases hasOpenAPIProperty x p with
  | error e => rfl
  | ok result =>
      rcases result with ⟨found, left⟩
      cases found with
      | true => rfl
      | false =>
          dsimp only
          rw [someHas]

end Loops

/-! ## Paths, shape by shape -/

theorem resolves_cons_iff {s : Json} {name : Text} {rest : List Text} :
    Resolves s (name :: rest) <->
      match shapeOf s with
      | .any l => exists x, x ∈ l ∧ Resolves x (name :: rest)
      | .all l => forall x, x ∈ l -> Resolves x (name :: rest)
      | .items (some x) => Resolves x (name :: rest)
      | .names true (.obj fields) =>
          exists x, fields.lookup name = some x ∧ Resolves x rest
      | _ => False := by
  constructor
  · intro h
    cases h with
    | any hshape hx hpath =>
        rw [hshape]
        exact ⟨_, hx, hpath⟩
    | all hshape hpath =>
        rw [hshape]
        exact hpath
    | items hshape hpath =>
        rw [hshape]
        exact hpath
    | property hshape hname hpath =>
        rw [hshape]
        exact ⟨_, hname, hpath⟩
  · intro h
    split at h
    · rename_i hshape
      rcases h with ⟨x, hx, hpath⟩
      exact Resolves.any hshape hx hpath
    · rename_i hshape
      exact Resolves.all hshape h
    · rename_i hshape
      exact Resolves.items hshape h
    · rename_i hshape
      rcases h with ⟨x, hname, hpath⟩
      exact Resolves.property hshape hname hpath
    · exact False.elim h

/-! ## Schemas in which no name is looked up -/

theorem has_of_not_looks {s : Json} (hs : IsSchema s) (h : ¬ Looks s)
    (name : Text) (rest : List Text) :
    hasOpenAPIProperty s (name :: rest) = .ok (false, name :: rest) ∧
      ¬ Resolves s (name :: rest) := by
  have hobject := hs.isObject
  rw [has_cons hobject, resolves_cons_iff]
  induction hs with
  | any hshape hne hparts ih =>
      rename_i s l
      have hnone : forall x, x ∈ l ->
          hasOpenAPIProperty x (name :: rest) = .ok (false, name :: rest) ∧
            ¬ Resolves x (name :: rest) := by
        intro x hx
        have hx' := (hparts x hx).isObject
        have hnot := ih x hx (fun hlooks => h (Looks.any hshape hx hlooks)) hx'
        rw [← has_cons hx', ← resolves_cons_iff] at hnot
        exact hnot
      rw [hshape]
      constructor
      · have happend := someHas_append (fun x hx => (hnone x hx).left) []
        rw [List.append_nil] at happend
        dsimp only
        rw [happend, someHas]
      · intro hresolves
        rcases hresolves with ⟨x, hx, hpath⟩
        exact (hnone x hx).right hpath
  | all hshape hne hparts ih =>
      rename_i s l
      cases l with
      | nil => exact absurd rfl hne
      | cons x l =>
          have hx' := (hparts x List.mem_cons_self).isObject
          have hnot := ih x List.mem_cons_self
            (fun hlooks => h (Looks.all hshape hlooks)) hx'
          rw [← has_cons hx', ← resolves_cons_iff] at hnot
          rw [hshape]
          constructor
          · exact everyHas_of_false hnot.left l
          · intro hresolves
            exact hnot.right (hresolves x List.mem_cons_self)
  | array hshape hitems ih =>
      rename_i s items
      rw [hshape]
      cases items with
      | none => exact ⟨rfl, fun hresolves => hresolves⟩
      | some x =>
          have hx' := (hitems x rfl).isObject
          have hnot := ih x rfl (fun hlooks => h (Looks.items hshape hlooks)) hx'
          rw [← has_cons hx', ← resolves_cons_iff] at hnot
          exact hnot
  | object hshape hfields => exact absurd (Looks.names hshape) h
  | bare hshape =>
      rw [hshape]
      exact ⟨rfl, fun hresolves => hresolves⟩
  | plain hshape => exact absurd (Looks.names hshape) h

/-! ## Schemas in which a name is looked up -/

theorem looks_iff {s : Json} :
    Looks s <->
      match shapeOf s with
      | .any l => exists x, x ∈ l ∧ Looks x
      | .all (x :: _) => Looks x
      | .items (some x) => Looks x
      | .names _ _ => True
      | _ => False := by
  constructor
  · intro h
    cases h with
    | any hshape hx hlooks =>
        rw [hshape]
        exact ⟨_, hx, hlooks⟩
    | all hshape hlooks =>
        rw [hshape]
        exact hlooks
    | items hshape hlooks =>
        rw [hshape]
        exact hlooks
    | names hshape =>
        rw [hshape]
        exact True.intro
  · intro h
    split at h
    · rename_i hshape
      rcases h with ⟨x, hx, hlooks⟩
      exact Looks.any hshape hx hlooks
    · rename_i hshape
      exact Looks.all hshape h
    · rename_i hshape
      exact Looks.items hshape h
    · rename_i hshape
      exact Looks.names hshape
    · exact False.elim h

theorem hasTarget_nil (target : Target) :
    hasTarget target [] = .ok (target.found, []) := by
  cases target with
  | value v =>
      cases v with
      | none => rfl
      | some v =>
          show hasOpenAPIProperty v [] = .ok (isObject v, [])
          cases hv : isObject v with
          | true => exact has_nil hv
          | false => exact has_of_not_object hv
  | prototype height =>
      cases height with
      | zero => rfl
      | succ height => rfl

theorem someHas_of_looks {l : List Json} (name : Text)
    (hparts : forall x, x ∈ l -> IsSchema x)
    (hlooks : forall x, x ∈ l -> Looks x ->
      exists found, hasOpenAPIProperty x [name] = .ok (found, []))
    (h : exists x, x ∈ l ∧ Looks x) :
    exists found, someHas l [name] = .ok (found, []) ∧
      forall front last x, l = front ++ [last] -> x ∈ front -> Looks x ->
        found = true := by
  induction l with
  | nil =>
      rcases h with ⟨x, hx, _⟩
      cases hx
  | cons x l ih =>
      have hrest : forall y, y ∈ l -> IsSchema y :=
        fun y hy => hparts y (List.mem_cons_of_mem x hy)
      by_cases hx : Looks x
      · rcases hlooks x List.mem_cons_self hx with ⟨found, hfound⟩
        cases found with
        | true => exact ⟨true, someHas_of_true hfound l, fun _ _ _ _ _ _ => rfl⟩
        | false =>
            rw [someHas_of_false hfound]
            cases l with
            | nil =>
                exists false
                constructor
                · rw [someHas]
                · intro front last y hsplit hy _
                  cases front with
                  | nil => cases hy
                  | cons z front =>
                      injection hsplit with _ hsplit
                      exact absurd hsplit.symm (by simp)
            | cons next l =>
                exists true
                constructor
                · exact someHas_nil (List.cons_ne_nil _ _) hrest
                · intro _ _ _ _ _ _
                  rfl
      · rcases h with ⟨y, hy, hlooksY⟩
        have hmem : y ∈ l := by
          cases hy with
          | head => exact absurd hlooksY hx
          | tail _ hy => exact hy
        rcases ih hrest (fun z hz => hlooks z (List.mem_cons_of_mem x hz))
            ⟨y, hmem, hlooksY⟩ with ⟨found, hfound, hfront⟩
        have hpass := (has_of_not_looks (hparts x List.mem_cons_self) hx name
          []).left
        exists found
        constructor
        · rw [someHas_of_false hpass, hfound]
        · intro front last z hsplit hz hlooksZ
          cases front with
          | nil => cases hz
          | cons w front =>
              injection hsplit with hw hsplit
              apply hfront front last z hsplit _ hlooksZ
              cases hz with
              | head =>
                  rw [hw] at hx
                  exact absurd hlooksZ hx
              | tail _ hz => exact hz

theorem has_of_looks {s : Json} (hs : IsSchema s) (h : Looks s) (name : Text) :
    exists found, hasOpenAPIProperty s [name] = .ok (found, []) := by
  have hobject := hs.isObject
  rw [looks_iff] at h
  rw [has_cons hobject]
  induction hs with
  | any hshape hne hparts ih =>
      rename_i s l
      rw [hshape] at h ⊢
      have hlooks : forall x, x ∈ l -> Looks x ->
          exists found, hasOpenAPIProperty x [name] = .ok (found, []) := by
        intro x hx hlooks
        have hx' := (hparts x hx).isObject
        rw [has_cons hx']
        exact ih x hx (looks_iff.mp hlooks) hx'
      rcases someHas_of_looks name hparts hlooks h with ⟨found, hfound, _⟩
      exact ⟨found, hfound⟩
  | all hshape hne hparts ih =>
      rename_i s l
      rw [hshape] at h ⊢
      cases l with
      | nil => exact absurd rfl hne
      | cons x l =>
          have hx' := (hparts x List.mem_cons_self).isObject
          have hfound := ih x List.mem_cons_self (looks_iff.mp h) hx'
          rw [← has_cons hx'] at hfound
          rcases hfound with ⟨found, hfound⟩
          cases found with
          | true =>
              exists true
              dsimp only
              rw [everyHas_of_true hfound]
              exact everyHas_nil fun y hy => hparts y (List.mem_cons_of_mem x hy)
          | false => exact ⟨false, everyHas_of_false hfound l⟩
  | array hshape hitems ih =>
      rename_i s items
      rw [hshape] at h ⊢
      cases items with
      | none => exact False.elim h
      | some x =>
          have hx' := (hitems x rfl).isObject
          have hfound := ih x rfl (looks_iff.mp h) hx'
          rw [← has_cons hx'] at hfound
          exact hfound
  | object hshape hfields =>
      rw [hshape]
      exact ⟨_, hasTarget_nil _⟩
  | bare hshape =>
      rw [hshape] at h
      exact False.elim h
  | plain hshape =>
      rw [hshape]
      exact ⟨_, hasTarget_nil _⟩

/-! ## Names that no schema has -/

theorem exists_bound_of_forall {a : Type} {q : a -> Text -> Prop} {l : List a}
    (h : forall x, x ∈ l -> exists bound, forall name : Text,
      bound ≤ name.length -> q x name) :
    exists bound, forall name : Text, bound ≤ name.length ->
      forall x, x ∈ l -> q x name := by
  induction l with
  | nil =>
      exists 0
      intro name _ x hx
      cases hx
  | cons x l ih =>
      rcases h x List.mem_cons_self with ⟨first, hfirst⟩
      rcases ih fun y hy => h y (List.mem_cons_of_mem x hy) with
        ⟨rest, hrest⟩
      exists max first rest
      intro name hname y hy
      cases hy with
      | head => exact hfirst name (Nat.le_trans (Nat.le_max_left _ _) hname)
      | tail _ hy =>
          exact hrest name (Nat.le_trans (Nat.le_max_right _ _) hname) y hy

theorem exists_bound {s : Json} (hs : IsSchema s) :
    exists bound, forall name : Text, bound ≤ name.length ->
      ¬ Resolves s [name] := by
  induction hs with
  | any hshape hne hparts ih =>
      rename_i s l
      rcases exists_bound_of_forall ih with ⟨bound, hbound⟩
      exists bound
      intro name hname hresolves
      rw [resolves_cons_iff, hshape] at hresolves
      rcases hresolves with ⟨x, hx, hpath⟩
      exact hbound name hname x hx hpath
  | all hshape hne hparts ih =>
      rename_i s l
      cases l with
      | nil => exact absurd rfl hne
      | cons x l =>
          rcases ih x List.mem_cons_self with ⟨bound, hbound⟩
          exists bound
          intro name hname hresolves
          rw [resolves_cons_iff, hshape] at hresolves
          exact hbound name hname (hresolves x List.mem_cons_self)
  | array hshape hitems ih =>
      rename_i s items
      cases items with
      | none =>
          exists 0
          intro name _ hresolves
          rw [resolves_cons_iff, hshape] at hresolves
          exact hresolves
      | some x =>
          rcases ih x rfl with ⟨bound, hbound⟩
          exists bound
          intro name hname hresolves
          rw [resolves_cons_iff, hshape] at hresolves
          exact hbound name hname hresolves
  | object hshape hfields ih =>
      rename_i s fields
      have hkeys : forall field, field ∈ fields -> exists bound,
          forall name : Text, bound ≤ name.length -> field.1 ≠ name := by
        intro field _
        exists field.1.length + 1
        intro name hname heq
        rw [heq] at hname
        exact absurd hname (Nat.not_succ_le_self _)
      rcases exists_bound_of_forall hkeys with ⟨bound, hbound⟩
      exists bound
      intro name hname hresolves
      rw [resolves_cons_iff, hshape] at hresolves
      rcases hresolves with ⟨x, hlookup, _⟩
      rcases List.lookup_eq_some_iff.mp hlookup with ⟨front, back, hsplit, _⟩
      have hmem : (name, x) ∈ fields := by
        rw [hsplit]
        exact List.mem_append_right _ List.mem_cons_self
      exact hbound name hname (name, x) hmem rfl
  | bare hshape =>
      exists 0
      intro name _ hresolves
      rw [resolves_cons_iff, hshape] at hresolves
      exact hresolves
  | plain hshape =>
      exists 0
      intro name _ hresolves
      rw [resolves_cons_iff, hshape] at hresolves
      exact hresolves

theorem exists_fresh {s : Json} (hs : IsSchema s) (proto : Bool) :
    exists name, IsName proto name ∧ ¬ Resolves s [name] := by
  rcases exists_bound hs with ⟨bound, hbound⟩
  exists List.replicate (bound + 10) 'a'
  constructor
  · apply Or.inr
    intro hproto
    have hlength := congrArg List.length hproto
    have hnine : "__proto__".toList.length = 9 := rfl
    rw [List.length_replicate, hnine] at hlength
    omega
  · apply hbound
    rw [List.length_replicate]
    exact Nat.le_add_right _ _

/-! ## When the search is right -/

/-- The search finds the path, to its end, or it is none. -/
def Agrees (s : Json) (p : List Text) : Prop :=
  (hasOpenAPIProperty s p = .ok (true, []) ∧ Resolves s p) ∨
    (¬ Accepts s p ∧ ¬ Resolves s p)

theorem agrees_of_false {s : Json} {p left : List Text}
    (h : hasOpenAPIProperty s p = .ok (false, left)) (hnot : ¬ Resolves s p) :
    Agrees s p := by
  apply Or.inr
  constructor
  · intro haccepts
    rcases haccepts with ⟨left', hleft⟩
    rw [h] at hleft
    cases hleft
  · exact hnot

theorem agrees_congr {s x : Json} {p p' : List Text}
    (hhas : hasOpenAPIProperty s p = hasOpenAPIProperty x p')
    (hresolves : Resolves s p <-> Resolves x p') (h : Agrees x p') :
    Agrees s p := by
  unfold Agrees Accepts at h ⊢
  rw [hhas, hresolves]
  exact h

theorem agrees_nil {s : Json} (hs : IsSchema s) : Agrees s [] :=
  Or.inl ⟨has_nil hs.isObject, Resolves.here hs.isObject⟩

theorem agrees_of_sound {proto : Bool} {s : Json} (hs : IsSchema s)
    (hsound : Sound proto s) {p : List Text} (hp : IsPath proto p) :
    Agrees s p := by
  have hobject := hs.isObject
  have hparts := hs.parts
  cases p with
  | nil => exact agrees_nil hs
  | cons name rest =>
      induction hsound generalizing name rest with
      | any hshape hfront hlast ih =>
          rename_i s front last
          rw [hshape] at hparts
          have hlastSchema : IsSchema last := hparts.right last (by simp)
          have hnot : forall x, x ∈ front ->
              hasOpenAPIProperty x (name :: rest) = .ok (false, name :: rest) ∧
                ¬ Resolves x (name :: rest) := fun x hx =>
            has_of_not_looks (hparts.right x (List.mem_append_left _ hx))
              (hfront x hx) name rest
          have hagrees := ih hlastSchema hlastSchema.isObject
            hlastSchema.parts name rest hp
          apply agrees_congr _ _ hagrees
          · rw [has_cons hobject, hshape]
            dsimp only
            rw [someHas_append fun x hx => (hnot x hx).left,
              someHas_singleton]
          · rw [resolves_cons_iff, hshape]
            constructor
            · intro h
              rcases h with ⟨x, hx, hpath⟩
              rcases List.mem_append.mp hx with hx | hx
              · exact absurd hpath (hnot x hx).right
              · rw [← List.mem_singleton.mp hx]
                exact hpath
            · intro h
              exact ⟨last, by simp, h⟩
      | all hshape hfirst hothers ih =>
          rename_i s first l
          rw [hshape] at hparts
          have hfirstSchema : IsSchema first :=
            hparts.right first List.mem_cons_self
          have hl : forall x, x ∈ l -> IsSchema x := fun x hx =>
            hparts.right x (List.mem_cons_of_mem first hx)
          have hagrees := ih hfirstSchema hfirstSchema.isObject
            hfirstSchema.parts name rest hp
          unfold Agrees Accepts
          rw [has_cons hobject, resolves_cons_iff, hshape]
          dsimp only
          rcases hagrees with ⟨hhas, hpath⟩ | ⟨hnot, hnone⟩
          · apply Or.inl
            constructor
            · rw [everyHas_of_true hhas]
              exact everyHas_nil hl
            · intro x hx
              cases hx with
              | head => exact hpath
              | tail _ hx => exact hothers x hx _ hp hpath
          · apply Or.inr
            constructor
            · intro haccepts
              rcases haccepts with ⟨left, hleft⟩
              cases hhas : hasOpenAPIProperty first (name :: rest) with
              | error e =>
                  rw [everyHas, hhas] at hleft
                  cases hleft
              | ok result =>
                  rcases result with ⟨found, left'⟩
                  cases found with
                  | true => exact hnot ⟨left', hhas⟩
                  | false =>
                      rw [everyHas_of_false hhas] at hleft
                      cases hleft
            · intro hall
              exact hnone (hall first List.mem_cons_self)
      | array hshape hitems ih =>
          rename_i s items
          rw [hshape] at hparts
          cases items with
          | none =>
              apply agrees_of_false
              · rw [has_cons hobject, hshape]
              · rw [resolves_cons_iff, hshape]
                exact id
          | some x =>
              have hx := hparts x rfl
              have hagrees := ih x rfl hx hx.isObject hx.parts name rest hp
              apply agrees_congr _ _ hagrees
              · rw [has_cons hobject, hshape]
              · rw [resolves_cons_iff, hshape]
      | object hshape hproto hfields ih =>
          rename_i s fields
          rw [hshape] at hparts
          have hname : IsName proto name := hp name List.mem_cons_self
          have hrest : IsPath proto rest :=
            fun n hn => hp n (List.mem_cons_of_mem name hn)
          cases hlookup : fields.lookup name with
          | some x =>
              have hx := hparts name x hlookup
              have htarget : propertyAt (.obj fields) name =
                  .value (some x) := by
                unfold propertyAt
                dsimp only
                rw [hlookup]
              have hagrees : Agrees x rest := by
                cases rest with
                | nil => exact agrees_nil hx
                | cons next rest =>
                    exact ih name x hname hlookup hx hx.isObject hx.parts next
                      rest hrest
              apply agrees_congr _ _ hagrees
              · rw [has_cons hobject, hshape]
                dsimp only
                rw [htarget]
                rfl
              · rw [resolves_cons_iff, hshape]
                dsimp only
                rw [hlookup]
                constructor
                · intro h
                  rcases h with ⟨y, hy, hpath⟩
                  cases hy
                  exact hpath
                · intro h
                  exact ⟨x, rfl, h⟩
          | none =>
              have hne : name ≠ "__proto__".toList := by
                intro heq
                rw [heq] at hname hlookup
                rcases hname with htrue | hne
                · exact hproto htrue hlookup
                · exact hne rfl
              have htarget : propertyAt (.obj fields) name = .value none := by
                unfold propertyAt
                dsimp only
                rw [hlookup]
                exact if_neg hne
              apply agrees_of_false
              · rw [has_cons hobject, hshape]
                dsimp only
                rw [htarget]
                rfl
              · rw [resolves_cons_iff, hshape]
                dsimp only
                rw [hlookup]
                intro h
                rcases h with ⟨y, hy, _⟩
                cases hy
      | bare hshape =>
          apply agrees_of_false
          · rw [has_cons hobject, hshape]
          · rw [resolves_cons_iff, hshape]
            exact id
      | plain hshape hnames =>
          rename_i s v
          have hfound := hnames name (hp name List.mem_cons_self)
          have hresolves : ¬ Resolves s (name :: rest) := by
            rw [resolves_cons_iff, hshape]
            exact id
          have hhas : hasOpenAPIProperty s (name :: rest) =
              hasTarget (propertyAt v name) rest := by
            rw [has_cons hobject, hshape]
          cases htarget : propertyAt v name with
          | prototype height =>
              rw [htarget] at hfound
              cases hfound
          | value w =>
              rw [htarget] at hfound hhas
              cases w with
              | none => exact agrees_of_false hhas hresolves
              | some w =>
                  have hw : hasOpenAPIProperty w rest = .ok (false, rest) :=
                    has_of_not_object hfound
                  exact agrees_of_false (hhas.trans hw) hresolves

def Refutes (proto : Bool) (s : Json) : Prop :=
  forall p, IsPath proto p -> hasOpenAPIProperty s p = .ok (true, []) ->
    Resolves s p

theorem isPath_singleton {proto : Bool} {name : Text}
    (h : IsName proto name) : IsPath proto [name] := by
  intro n hn
  rw [List.mem_singleton.mp hn]
  exact h

theorem sound_of_refutes {proto : Bool} {s : Json} (hs : IsSchema s)
    (h : Refutes proto s) : Sound proto s := by
  have hobject := hs.isObject
  induction hs with
  | any hshape hne hparts ih =>
      rename_i s l
      rcases List.eq_nil_or_concat l with hnil | ⟨front, last, hconcat⟩
      · exact absurd hnil hne
      rw [List.concat_eq_append] at hconcat
      have hlast : last ∈ l := by
        rw [hconcat]
        exact List.mem_append_right _ List.mem_cons_self
      have hfront : forall x, x ∈ front -> ¬ Looks x := by
        intro x hx hlooks
        have hmem : x ∈ l := by
          rw [hconcat]
          exact List.mem_append_left _ hx
        rcases exists_fresh (IsSchema.any hshape hne hparts) proto with
          ⟨name, hname, hfresh⟩
        rcases someHas_of_looks name hparts
            (fun y hy hlooksY => has_of_looks (hparts y hy) hlooksY name)
            ⟨x, hmem, hlooks⟩ with ⟨found, hfound, htrue⟩
        rw [htrue front last x hconcat hx hlooks] at hfound
        apply hfresh
        apply h [name] (isPath_singleton hname)
        rw [has_cons hobject, hshape]
        exact hfound
      rw [hconcat] at hshape
      apply Sound.any hshape hfront
      apply ih last hlast _ (hparts last hlast).isObject
      intro p hp hhas
      cases p with
      | nil => exact Resolves.here (hparts last hlast).isObject
      | cons name rest =>
          have hnot : forall x, x ∈ front ->
              hasOpenAPIProperty x (name :: rest) = .ok (false, name :: rest) ∧
                ¬ Resolves x (name :: rest) := by
            intro x hx
            have hmem : x ∈ l := by
              rw [hconcat]
              exact List.mem_append_left _ hx
            exact has_of_not_looks (hparts x hmem) (hfront x hx) name rest
          have hresolves : Resolves s (name :: rest) := by
            apply h _ hp
            rw [has_cons hobject, hshape]
            dsimp only
            rw [someHas_append fun x hx => (hnot x hx).left, someHas_singleton]
            exact hhas
          rw [resolves_cons_iff, hshape] at hresolves
          rcases hresolves with ⟨x, hx, hpath⟩
          rcases List.mem_append.mp hx with hx | hx
          · exact absurd hpath (hnot x hx).right
          · rw [← List.mem_singleton.mp hx]
            exact hpath
  | all hshape hne hparts ih =>
      rename_i s l
      cases l with
      | nil => exact absurd rfl hne
      | cons first l =>
          have hfirst := hparts first List.mem_cons_self
          have hl : forall x, x ∈ l -> IsSchema x := fun x hx =>
            hparts x (List.mem_cons_of_mem first hx)
          have hall : forall p, IsPath proto p ->
              hasOpenAPIProperty first p = .ok (true, []) ->
              forall x, x ∈ first :: l -> Resolves x p := by
            intro p hp hhas x hx
            cases p with
            | nil => exact Resolves.here (hparts x hx).isObject
            | cons name rest =>
                have hresolves : Resolves s (name :: rest) := by
                  apply h _ hp
                  rw [has_cons hobject, hshape]
                  dsimp only
                  rw [everyHas_of_true hhas]
                  exact everyHas_nil hl
                rw [resolves_cons_iff, hshape] at hresolves
                exact hresolves x hx
          have hsound : Sound proto first := by
            apply ih first List.mem_cons_self _ hfirst.isObject
            intro p hp hhas
            exact hall p hp hhas first List.mem_cons_self
          apply Sound.all hshape hsound
          intro x hx p hp hpath
          rcases agrees_of_sound hfirst hsound hp with ⟨hhas, _⟩ | ⟨_, hnot⟩
          · exact hall p hp hhas x (List.mem_cons_of_mem first hx)
          · exact absurd hpath hnot
  | array hshape hitems ih =>
      rename_i s items
      apply Sound.array hshape
      intro x hx
      have hx' := (hitems x hx).isObject
      apply ih x hx _ hx'
      intro p hp hhas
      cases p with
      | nil => exact Resolves.here hx'
      | cons name rest =>
          rw [hx] at hshape
          have hresolves : Resolves s (name :: rest) := by
            apply h _ hp
            rw [has_cons hobject, hshape]
            exact hhas
          rw [resolves_cons_iff, hshape] at hresolves
          exact hresolves
  | object hshape hfields ih =>
      rename_i s fields
      apply Sound.object hshape
      · intro hproto hnone
        have hname : IsName proto "__proto__".toList := Or.inl hproto
        have htarget : propertyAt (.obj fields) "__proto__".toList =
            .prototype 0 := by
          unfold propertyAt
          dsimp only
          rw [hnone]
          exact if_pos rfl
        have hresolves : Resolves s ["__proto__".toList] := by
          apply h _ (isPath_singleton hname)
          rw [has_cons hobject, hshape]
          dsimp only
          rw [htarget]
          exact hasTarget_nil _
        rw [resolves_cons_iff, hshape] at hresolves
        rcases hresolves with ⟨x, hx, _⟩
        rw [hnone] at hx
        cases hx
      · intro key x hkey hlookup
        have hx := hfields key x hlookup
        apply ih key x hlookup _ hx.isObject
        intro p hp hhas
        have htarget : propertyAt (.obj fields) key = .value (some x) := by
          unfold propertyAt
          dsimp only
          rw [hlookup]
        have hpath : IsPath proto (key :: p) := by
          intro n hn
          cases hn with
          | head => exact hkey
          | tail _ hn => exact hp n hn
        have hresolves : Resolves s (key :: p) := by
          apply h _ hpath
          rw [has_cons hobject, hshape]
          dsimp only
          rw [htarget]
          exact hhas
        rw [resolves_cons_iff, hshape] at hresolves
        rcases hresolves with ⟨y, hy, hpathY⟩
        rw [hlookup] at hy
        cases hy
        exact hpathY
  | bare hshape => exact Sound.bare hshape
  | plain hshape =>
      rename_i fields v
      apply Sound.plain hshape
      intro name hname
      cases hfound : (propertyAt v name).found with
      | false => rfl
      | true =>
          have hresolves : Resolves (.obj fields) [name] := by
            apply h _ (isPath_singleton hname)
            rw [has_cons hobject, hshape]
            dsimp only
            rw [hasTarget_nil, hfound]
          rw [resolves_cons_iff, hshape] at hresolves
          exact False.elim hresolves

/-- The search returns true for exactly the paths of a schema, when and only
when the schema is sound. -/
theorem accepts_iff_resolves_iff (proto : Bool) {s : Json} (hs : IsSchema s) :
    (forall p, IsPath proto p -> (Accepts s p <-> Resolves s p)) <->
      Sound proto s := by
  constructor
  · intro h
    apply sound_of_refutes hs
    intro p hp hhas
    exact (h p hp).mp ⟨[], hhas⟩
  · intro h p hp
    rcases agrees_of_sound hs h hp with ⟨hhas, hpath⟩ | ⟨hnot, hnone⟩
    · exact ⟨fun _ => hpath, fun _ => ⟨[], hhas⟩⟩
    · exact ⟨fun haccepts => absurd haccepts hnot,
        fun hpath => absurd hpath hnone⟩

/-! ## Pets -/

def withProperty (name : String) : Json :=
  .obj [("type".toList, .str "object".toList),
    ("properties".toList, .obj [(name.toList,
      .obj [("type".toList, .str "boolean".toList)])])]

theorem isSchema_withProperty (name : String) :
    IsSchema (withProperty name) := by
  have hshape : shapeOf (withProperty name) = .names true (.obj
      [(name.toList, .obj [("type".toList, .str "boolean".toList)])]) := rfl
  apply IsSchema.object hshape
  intro key x hx
  rw [List.lookup_cons] at hx
  split at hx
  · cases hx
    exact IsSchema.plain (v := .obj [("type".toList, .str "boolean".toList)])
      rfl
  · cases hx

/-- A cat, with paths of any names but one. -/
theorem accepts_iff_resolves_cat :
    (forall p, IsPath false p -> (Accepts (withProperty "meows") p <->
        Resolves (withProperty "meows") p)) <->
      Sound false (withProperty "meows") :=
  accepts_iff_resolves_iff false (isSchema_withProperty "meows")

def pet : Json :=
  .obj [("anyOf".toList, .arr [withProperty "meows", withProperty "barks"])]

/-- The name is looked up in the cat, and nothing is left of the path for the
dog: a property is found that neither of them has. -/
theorem not_resolves_wings :
    IsSchema pet ∧ hasOpenAPIProperty pet ["wings".toList] = .ok (true, []) ∧
      ¬ Resolves pet ["wings".toList] := by
  have hshape : shapeOf pet =
      .any [withProperty "meows", withProperty "barks"] := rfl
  have hparts : forall x, x ∈ [withProperty "meows", withProperty "barks"] ->
      exists name, x = withProperty name ∧ name ≠ "wings" := by
    intro x hx
    cases hx with
    | head => exact ⟨"meows", rfl, by decide⟩
    | tail _ hx => exact ⟨"barks", List.mem_singleton.mp hx, by decide⟩
  constructor
  · apply IsSchema.any hshape (List.cons_ne_nil _ _)
    intro x hx
    rcases hparts x hx with ⟨name, hname, _⟩
    rw [hname]
    exact isSchema_withProperty name
  constructor
  · have hcat : hasOpenAPIProperty (withProperty "meows") ["wings".toList] =
        .ok (false, []) := by
      rw [has_cons rfl]
      rfl
    have hdog : hasOpenAPIProperty (withProperty "barks") [] =
        .ok (true, []) := has_nil rfl
    rw [has_cons rfl, hshape]
    dsimp only
    rw [someHas_of_false hcat]
    exact someHas_of_true hdog []
  · intro hresolves
    rw [resolves_cons_iff, hshape] at hresolves
    rcases hresolves with ⟨x, hx, hpath⟩
    rcases hparts x hx with ⟨name, hname, hne⟩
    rw [hname, resolves_cons_iff] at hpath
    rcases hpath with ⟨y, hy, _⟩
    rw [List.lookup_cons] at hy
    split at hy
    · rename_i heq
      exact hne (String.toList_inj.mp (beq_iff_eq.mp heq).symm)
    · cases hy

end Agents
end CallgentApi
