import Mathlib

/-!
# Computations that may throw

A computation works on a state and returns a value or throws; what it has done
to the state stays done in both cases.
-/

namespace CallgentApi

abbrev Effect (s e a : Type) := ExceptT e (StateM s) a

namespace Effect

variable {s t e a b : Type}

/-- The result of a computation and the state it leaves. -/
def exec (x : Effect s e a) (state : s) : Except e a × s :=
  x.run state

@[simp] theorem exec_pure (value : a) (state : s) :
    exec (pure value : Effect s e a) state = (.ok value, state) := rfl

theorem exec_pure_eq_ok {value value' : a} {state next : s}
    (h : exec (pure value : Effect s e a) state = (.ok value', next)) :
    value = value' ∧ state = next := by
  cases h
  exact ⟨rfl, rfl⟩

@[simp] theorem exec_throw (error : e) (state : s) :
    exec (throw error : Effect s e a) state = (.error error, state) := rfl

@[simp] theorem exec_get (state : s) :
    exec (get : Effect s e s) state = (.ok state, state) := rfl

@[simp] theorem exec_modify (f : s -> s) (state : s) :
    exec (modify f : Effect s e Unit) state = (.ok (), f state) := rfl

theorem exec_bind (x : Effect s e a) (f : a -> Effect s e b) (state : s) :
    exec (x >>= f) state =
      match exec x state with
      | (.ok value, next) => exec (f value) next
      | (.error error, next) => (.error error, next) := by
  show (ExceptT.bind x f).run state = _
  unfold exec ExceptT.bind ExceptT.run ExceptT.mk ExceptT.bindCont
  cases hx : x state with
  | mk result next =>
      simp only [bind, StateT.bind, hx]
      cases result with
      | ok value => rfl
      | error error => rfl

theorem exec_bind_of_ok {x : Effect s e a} {state next : s} {value : a}
    (h : exec x state = (.ok value, next)) (f : a -> Effect s e b) :
    exec (x >>= f) state = exec (f value) next := by
  rw [exec_bind, h]

theorem exec_bind_of_error {x : Effect s e a} {state next : s} {error : e}
    (h : exec x state = (.error error, next)) (f : a -> Effect s e b) :
    exec (x >>= f) state = (.error error, next) := by
  rw [exec_bind, h]

theorem exec_bind_eq_ok {x : Effect s e a} {f : a -> Effect s e b}
    {state last : s} {value : b}
    (h : exec (x >>= f) state = (.ok value, last)) :
    exists first next, exec x state = (.ok first, next) ∧
      exec (f first) next = (.ok value, last) := by
  cases hx : exec x state with
  | mk result next =>
      cases result with
      | ok first =>
          rw [exec_bind_of_ok hx] at h
          exact ⟨first, next, rfl, h⟩
      | error error =>
          rw [exec_bind_of_error hx] at h
          cases h

theorem snd_exec_bind_pure (x : Effect s e a) (g : a -> b) (state : s) :
    (exec (x >>= fun value => pure (g value)) state).2 = (exec x state).2 := by
  cases hx : exec x state with
  | mk result next =>
      cases result with
      | ok value =>
          rw [exec_bind_of_ok hx]
          rfl
      | error error => rw [exec_bind_of_error hx]

/-- A computation that does nothing to the state. -/
def ofResult (x : Except e a) : Effect s e a :=
  fun state => (x, state)

theorem exec_ofResult (x : Except e a) (state : s) :
    exec (ofResult x) state = (x, state) := rfl

theorem exec_ofResult_bind_ok {x : Except e a} {value : a} (h : x = .ok value)
    (f : a -> Effect s e b) (state : s) :
    exec (ofResult x >>= f) state = exec (f value) state := by
  rw [h]
  exact exec_bind_of_ok (exec_ofResult _ state) f

/-- `x` followed by `f` in every case; `f` gets the value, if there is one. -/
def finally_ (x : Effect s e a) (f : Option a -> s -> s) : Effect s e a :=
  fun state =>
    match exec x state with
    | (.ok value, next) => (.ok value, f (some value) next)
    | (.error error, next) => (.error error, f none next)

theorem exec_finally (x : Effect s e a) (f : Option a -> s -> s) (state : s) :
    exec (finally_ x f) state =
      match exec x state with
      | (.ok value, next) => (.ok value, f (some value) next)
      | (.error error, next) => (.error error, f none next) := rfl

/-- `x` with what it throws dropped. -/
def attempt (x : Effect s e a) : Effect s e (Option a) :=
  fun state =>
    match exec x state with
    | (.ok value, next) => (.ok (some value), next)
    | (.error _, next) => (.ok none, next)

theorem exec_attempt (x : Effect s e a) (state : s) :
    exec (attempt x) state =
      match exec x state with
      | (.ok value, next) => (.ok (some value), next)
      | (.error _, next) => (.ok none, next) := rfl

/-- `x` with what it throws as a value. -/
def settle (x : Effect s e a) : Effect s e (Except e a) :=
  fun state =>
    match exec x state with
    | (result, next) => (.ok result, next)

@[simp] theorem exec_settle (x : Effect s e a) (state : s) :
    exec (settle x) state =
      (.ok (exec x state).1, (exec x state).2) := rfl

/-- `try x finally y`: what `y` throws is thrown instead. -/
def ensuring (x : Effect s e a) (y : Effect s e Unit) : Effect s e a :=
  fun state =>
    match exec x state with
    | (result, middle) =>
        match exec y middle with
        | (.ok _, last) => (result, last)
        | (.error error, last) => (.error error, last)

theorem exec_ensuring (x : Effect s e a) (y : Effect s e Unit) (state : s) :
    exec (ensuring x y) state =
      match exec y (exec x state).2 with
      | (.ok _, last) => ((exec x state).1, last)
      | (.error error, last) => (.error error, last) := rfl

def zoom (part : t -> s) (put : t -> s -> t) (x : Effect s e a) :
    Effect t e a :=
  fun state =>
    match exec x (part state) with
    | (result, next) => (result, put state next)

@[simp] theorem exec_zoom (part : t -> s) (put : t -> s -> t)
    (x : Effect s e a) (state : t) :
    exec (zoom part put x) state =
      ((exec x (part state)).1, put state (exec x (part state)).2) := rfl

/-! ## What a computation returns -/

/-- What the computation returns, if it does, satisfies `p`. -/
def Returns (p : a -> Prop) (x : Effect s e a) : Prop :=
  forall state value next, exec x state = (.ok value, next) -> p value

namespace Returns

variable {p : a -> Prop} {q : b -> Prop}

theorem pure {value : a} (h : p value) :
    Returns p (pure value : Effect s e a) := by
  intro state value' next hexec
  cases hexec
  exact h

theorem throw (error : e) : Returns p (throw error : Effect s e a) := by
  intro state value next hexec
  cases hexec

theorem bind {x : Effect s e a} {k : a -> Effect s e b} (hx : Returns p x)
    (hk : forall value, p value -> Returns q (k value)) :
    Returns q (x >>= k) := by
  intro state value next hexec
  rcases exec_bind_eq_ok hexec with ⟨first, middle, hfirst, hrest⟩
  exact hk first (hx state first middle hfirst) middle value next hrest

theorem trivial (x : Effect s e a) : Returns (fun _ => True) x :=
  fun _ _ _ _ => True.intro

theorem bind_any {x : Effect s e a} {k : a -> Effect s e b}
    (hk : forall value, Returns q (k value)) : Returns q (x >>= k) :=
  bind (trivial x) fun value _ => hk value

theorem zoom {x : Effect s e a} {part : t -> s} {put : t -> s -> t}
    (h : Returns p x) : Returns p (zoom part put x) := by
  intro state value next hexec
  rw [exec_zoom] at hexec
  have hvalue := congrArg Prod.fst hexec
  exact h (part state) value (exec x (part state)).2 (Prod.ext hvalue rfl)

end Returns

/-! ## Computations that never throw -/

/-- The computation returns in every state, a value that satisfies `p`. -/
def Always (p : a -> Prop) (x : Effect s e a) : Prop :=
  forall state, exists value next, exec x state = (.ok value, next) ∧ p value

namespace Always

variable {p : a -> Prop} {q : b -> Prop}

theorem pure {value : a} (h : p value) : Always p (pure value : Effect s e a) :=
  fun state => ⟨value, state, rfl, h⟩

theorem modify (f : s -> s) :
    Always (fun _ => True) (modify f : Effect s e Unit) :=
  fun state => ⟨(), f state, rfl, True.intro⟩

theorem attempt (x : Effect s e a) : Always (fun _ => True) (attempt x) := by
  intro state
  rw [exec_attempt]
  cases exec x state with
  | mk result next =>
      cases result with
      | ok value => exact ⟨some value, next, rfl, True.intro⟩
      | error error => exact ⟨none, next, rfl, True.intro⟩

theorem bind {x : Effect s e a} {k : a -> Effect s e b} (hx : Always p x)
    (hk : forall value, p value -> Always q (k value)) :
    Always q (x >>= k) := by
  intro state
  rcases hx state with ⟨first, middle, hfirst, hp⟩
  rw [exec_bind_of_ok hfirst]
  exact hk first hp middle

end Always

/-! ## Computations whose result is known -/

/-- From the states of `pre`, the computation ends with the result, in a state
of `post`. -/
def Ends (pre post : s -> Prop) (result : Except e a) (x : Effect s e a) :
    Prop :=
  forall state, pre state ->
    (exec x state).1 = result ∧ post (exec x state).2

namespace Ends

variable {pre mid post : s -> Prop} {result : Except e b}

theorem pure (value : a) :
    Ends pre pre (.ok value) (pure value : Effect s e a) :=
  fun _ h => ⟨rfl, h⟩

theorem throw (error : e) :
    Ends pre pre (.error error) (throw error : Effect s e a) :=
  fun _ h => ⟨rfl, h⟩

theorem modify {f : s -> s} (h : forall state, pre state -> post (f state)) :
    Ends pre post (.ok ()) (modify f : Effect s e Unit) :=
  fun state hstate => ⟨rfl, h state hstate⟩

theorem weaken {x : Effect s e b} (hx : Ends pre mid result x)
    (h : forall state, mid state -> post state) : Ends pre post result x :=
  fun state hstate =>
    ⟨(hx state hstate).left, h _ (hx state hstate).right⟩

theorem bind {x : Effect s e a} {k : a -> Effect s e b} {value : a}
    (hx : Ends pre mid (.ok value) x) (hk : Ends mid post result (k value)) :
    Ends pre post result (x >>= k) := by
  intro state hstate
  rcases hx state hstate with ⟨hvalue, hmid⟩
  have hexec : exec x state = (.ok value, (exec x state).2) :=
    Prod.ext hvalue rfl
  rw [exec_bind_of_ok hexec]
  exact hk _ hmid

theorem bind_error {x : Effect s e a} {error : e}
    (hx : Ends pre post (.error error) x) (k : a -> Effect s e b) :
    Ends pre post (.error error) (x >>= k) := by
  intro state hstate
  rcases hx state hstate with ⟨hthrown, hpost⟩
  have hexec : exec x state = (.error error, (exec x state).2) :=
    Prod.ext hthrown rfl
  rw [exec_bind_of_error hexec]
  exact ⟨rfl, hpost⟩

end Ends

/-! ## Pre- and postconditions -/

/-- From the states of `pre`, the result and the state that the computation
leaves satisfy `post`. -/
def Triple (pre : s -> Prop) (x : Effect s e a)
    (post : Except e a -> s -> Prop) : Prop :=
  forall state, pre state -> post (exec x state).1 (exec x state).2

namespace Triple

variable {pre : s -> Prop} {mid : Except e a -> s -> Prop}
  {post : Except e b -> s -> Prop}

theorem pure {post : Except e a -> s -> Prop} {value : a}
    (h : forall state, pre state -> post (.ok value) state) :
    Triple pre (pure value : Effect s e a) post :=
  h

theorem throw {post : Except e a -> s -> Prop} {error : e}
    (h : forall state, pre state -> post (.error error) state) :
    Triple pre (throw error : Effect s e a) post :=
  h

theorem modify {post : Except e Unit -> s -> Prop} {f : s -> s}
    (h : forall state, pre state -> post (.ok ()) (f state)) :
    Triple pre (modify f : Effect s e Unit) post :=
  h

theorem weaken {x : Effect s e a} {post : Except e a -> s -> Prop}
    (hx : Triple pre x mid)
    (h : forall result state, mid result state -> post result state) :
    Triple pre x post :=
  fun state hpre => h _ _ (hx state hpre)

theorem bind {x : Effect s e a} {k : a -> Effect s e b}
    (hx : Triple pre x mid)
    (hk : forall value, Triple (mid (.ok value)) (k value) post)
    (herror : forall error state, mid (.error error) state ->
      post (.error error) state) :
    Triple pre (x >>= k) post := by
  intro state hpre
  have hmid := hx state hpre
  cases hexec : exec x state with
  | mk result next =>
      rw [hexec] at hmid
      cases result with
      | ok value =>
          rw [exec_bind_of_ok hexec]
          exact hk value next hmid
      | error error =>
          rw [exec_bind_of_error hexec]
          exact herror error next hmid

theorem bind_inv {inv : s -> Prop} {x : Effect s e a} {k : a -> Effect s e b}
    (hx : Triple inv x fun _ => inv)
    (hk : forall value, Triple inv (k value) fun _ => inv) :
    Triple inv (x >>= k) fun _ => inv :=
  bind hx hk fun _ _ h => h

theorem ofResult_bind {x : Except e a} {k : a -> Effect s e b}
    (hk : forall value, x = .ok value -> Triple pre (k value) post)
    (herror : forall error state, pre state -> post (.error error) state) :
    Triple pre (ofResult x >>= k) post := by
  cases hx : x with
  | ok value =>
      intro state hpre
      rw [exec_ofResult_bind_ok rfl]
      exact hk value hx state hpre
  | error error => exact fun state hpre => herror error state hpre

end Triple

/-! ## What a computation leaves alone -/

/-- However it ends, the computation does not change the value of `f`. -/
def Keeps (f : s -> t) (x : Effect s e a) : Prop :=
  forall state, f (exec x state).2 = f state

namespace Keeps

variable {f : s -> t}

theorem pure (value : a) : Keeps f (pure value : Effect s e a) :=
  fun _ => rfl

theorem throw (error : e) : Keeps f (throw error : Effect s e a) :=
  fun _ => rfl

theorem get : Keeps f (get : Effect s e s) :=
  fun _ => rfl

theorem modify {g : s -> s} (h : forall state, f (g state) = f state) :
    Keeps f (modify g : Effect s e Unit) :=
  h

theorem bind_at {x : Effect s e a} {k : a -> Effect s e b} {state : s}
    (hx : f (exec x state).2 = f state)
    (hk : forall value next, exec x state = (.ok value, next) ->
      f (exec (k value) next).2 = f next) :
    f (exec (x >>= k) state).2 = f state := by
  cases hexec : exec x state with
  | mk result next =>
      rw [hexec] at hx
      cases result with
      | ok value =>
          rw [exec_bind_of_ok hexec]
          exact (hk value next hexec).trans hx
      | error error =>
          rw [exec_bind_of_error hexec]
          exact hx

theorem bind_of {x : Effect s e a} {k : a -> Effect s e b} {p : a -> Prop}
    (hx : Keeps f x) (hp : Returns p x)
    (hk : forall value, p value -> Keeps f (k value)) :
    Keeps f (x >>= k) :=
  fun state => bind_at (hx state) fun value next hexec =>
    hk value (hp state value next hexec) next

theorem bind {x : Effect s e a} {k : a -> Effect s e b} (hx : Keeps f x)
    (hk : forall value, Keeps f (k value)) : Keeps f (x >>= k) :=
  bind_of hx (Returns.trivial x) fun value _ => hk value

theorem attempt {x : Effect s e a} (hx : Keeps f x) : Keeps f (attempt x) := by
  intro state
  have hkept := hx state
  rw [exec_attempt]
  cases hexec : exec x state with
  | mk result next =>
      rw [hexec] at hkept
      cases result with
      | ok value => exact hkept
      | error error => exact hkept

theorem settle {x : Effect s e a} (hx : Keeps f x) : Keeps f (settle x) := hx

theorem finally_ {x : Effect s e a} {g : Option a -> s -> s} (hx : Keeps f x)
    (hg : forall result state, f (g result state) = f state) :
    Keeps f (finally_ x g) := by
  intro state
  have hkept := hx state
  rw [exec_finally]
  cases hexec : exec x state with
  | mk result next =>
      rw [hexec] at hkept
      cases result with
      | ok value => exact (hg (some value) next).trans hkept
      | error error => exact (hg none next).trans hkept

theorem triple {x : Effect s e a} (hx : Keeps f x) (p : t -> Prop) :
    Triple (fun state => p (f state)) x fun _ state => p (f state) := by
  intro state hpre
  rw [hx state]
  exact hpre

theorem comp {r : Type} {x : Effect s e a} (hx : Keeps f x) (g : t -> r) :
    Keeps (fun state => g (f state)) x :=
  fun state => congrArg g (hx state)

theorem of_ok {x : Effect s e a} {state next : s} {value : a}
    (hx : Keeps f x) (h : exec x state = (.ok value, next)) :
    f next = f state := by
  have hkept := hx state
  rw [h] at hkept
  exact hkept

end Keeps

/-! ## How a computation may change the state -/

/-- However it ends, the computation leads from a state to a related one. -/
def Along (R : s -> s -> Prop) (x : Effect s e a) : Prop :=
  forall state, R state (exec x state).2

namespace Along

variable {R : s -> s -> Prop}

theorem of_keeps {f : s -> t} {x : Effect s e a}
    (h : forall state next, f next = f state -> R state next)
    (hx : Keeps f x) : Along R x :=
  fun state => h state (exec x state).2 (hx state)

theorem modify {g : s -> s} (h : forall state, R state (g state)) :
    Along R (modify g : Effect s e Unit) := h

theorem settle {x : Effect s e a} (hx : Along R x) : Along R (settle x) := hx

theorem bind (htrans : forall first second third, R first second ->
      R second third -> R first third)
    {x : Effect s e a} {k : a -> Effect s e b} (hx : Along R x)
    (hk : forall value, Along R (k value)) : Along R (x >>= k) := by
  intro state
  have hfirst := hx state
  cases hexec : exec x state with
  | mk result next =>
      rw [hexec] at hfirst
      cases result with
      | ok value =>
          rw [exec_bind_of_ok hexec]
          exact htrans _ _ _ hfirst (hk value next)
      | error error =>
          rw [exec_bind_of_error hexec]
          exact hfirst

theorem of_ok {x : Effect s e a} {state next : s} {value : a}
    (hx : Along R x) (h : exec x state = (.ok value, next)) : R state next := by
  have hrel := hx state
  rw [h] at hrel
  exact hrel

end Along

/-! ## What a computation adds to a count -/

/-- However it ends, the computation raises the count by `n` at most. -/
def Adds (count : s -> Nat) (n : Nat) (x : Effect s e a) : Prop :=
  forall state, count (exec x state).2 ≤ count state + n

namespace Adds

variable {count : s -> Nat} {m n : Nat}

theorem of_keeps {x : Effect s e a} (h : Keeps count x) (n : Nat) :
    Adds count n x := by
  intro state
  rw [h state]
  exact Nat.le_add_right _ _

theorem bind {x : Effect s e a} {k : a -> Effect s e b} (hx : Adds count m x)
    (hk : forall value, Adds count n (k value)) :
    Adds count (m + n) (x >>= k) := by
  intro state
  have hfirst := hx state
  cases hexec : exec x state with
  | mk result next =>
      rw [hexec] at hfirst
      cases result with
      | ok value =>
          rw [exec_bind_of_ok hexec]
          have hrest := hk value next
          dsimp only at hfirst
          omega
      | error error =>
          rw [exec_bind_of_error hexec]
          dsimp only at hfirst ⊢
          omega

theorem bind_keeps {x : Effect s e a} {k : a -> Effect s e b}
    (hx : Keeps count x) (hk : forall value, Adds count n (k value)) :
    Adds count n (x >>= k) := by
  have hadds := bind (of_keeps hx 0) hk
  rw [Nat.zero_add] at hadds
  exact hadds

theorem keeps_bind {x : Effect s e a} {k : a -> Effect s e b}
    (hx : Adds count n x) (hk : forall value, Keeps count (k value)) :
    Adds count n (x >>= k) :=
  bind hx fun value => of_keeps (hk value) 0

end Adds
end Effect
end CallgentApi
