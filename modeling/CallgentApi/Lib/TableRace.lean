import CallgentApi.Lib.Table

/-!
# Two transactions that look a key up and then insert it

Each party looks the key up, may delete the row it finds, and inserts a row of
its own later, all in one transaction.  What it has written is seen by the
other party after the commit, and a write waits as long as the other party has
written and not yet committed.  The index refuses the second of two insertions,
and a row is deleted once only.
-/

namespace CallgentApi
namespace TableRace

variable {key value : Type}

/-! ## Tables in transactions -/

structure Versions (key value : Type) where
  committed : Table key value
  current : Table key value
  /-- The party whose transaction has written. -/
  writer : Option Bool

namespace Versions

def view (t : Versions key value) (i : Bool) : Table key value :=
  if t.writer = some (!i) then t.committed else t.current

def write (t : Versions key value) (i : Bool) (u : Table key value) :
    Versions key value where
  committed := t.committed
  current := u
  writer := some i

def commit (t : Versions key value) (i : Bool) : Versions key value :=
  if t.writer = some i then ⟨t.current, t.current, none⟩ else t

def rollback (t : Versions key value) (i : Bool) : Versions key value :=
  if t.writer = some i then ⟨t.committed, t.committed, none⟩ else t

theorem view_of_writer_ne {t : Versions key value} {i : Bool}
    (h : t.writer ≠ some (!i)) : t.view i = t.current :=
  if_neg h

@[simp] theorem current_commit (t : Versions key value) (i : Bool) :
    (t.commit i).current = t.current := by
  unfold commit
  split
  · rfl
  · rfl

theorem writer_rollback_ne (t : Versions key value) (i : Bool) :
    (t.rollback i).writer ≠ some i := by
  unfold rollback
  split
  · exact fun h => nomatch h
  · assumption

theorem writer_commit_ne (t : Versions key value) (i : Bool) :
    (t.commit i).writer ≠ some i := by
  unfold commit
  split
  · exact fun h => nomatch h
  · assumption

/-- The committed version is what the writer has started from. -/
structure Sound (t : Versions key value) : Prop where
  same : t.writer = none -> t.current = t.committed
  nextPk_le : t.committed.nextPk ≤ t.current.nextPk
  keys : forall row, row ∈ t.current.rows ->
    forall old, old ∈ t.committed.rows -> row.pk = old.pk -> row.key = old.key

theorem sound_same (u : Table key value) (w : Option Bool) :
    Sound ⟨u, u, w⟩ where
  same := fun _ => rfl
  nextPk_le := Nat.le_refl _
  keys := by
    intro row hrow old hold hpk
    rw [Table.eq_of_pk hrow hold hpk]

theorem Sound.commit {t : Versions key value} (h : Sound t) (i : Bool) :
    Sound (t.commit i) := by
  unfold Versions.commit
  split
  · exact sound_same _ _
  · exact h

theorem Sound.rollback {t : Versions key value} (h : Sound t) (i : Bool) :
    Sound (t.rollback i) := by
  unfold Versions.rollback
  split
  · exact sound_same _ _
  · exact h

theorem Sound.write {t : Versions key value} (h : Sound t) (i : Bool)
    {u : Table key value} (hnextPk : t.current.nextPk ≤ u.nextPk)
    (hrows : forall row, row ∈ u.rows ->
      (exists old, old ∈ t.current.rows ∧ old.pk = row.pk ∧
        old.key = row.key) ∨ t.current.nextPk ≤ row.pk) :
    Sound (t.write i u) where
  same := fun hnone => nomatch hnone
  nextPk_le := Nat.le_trans h.nextPk_le hnextPk
  keys := by
    intro row hrow old hold hpk
    rcases hrows row hrow with ⟨kept, hkept, hkeptPk, hkey⟩ | hfresh
    · rw [← hkey]
      exact h.keys kept hkept old hold (hkeptPk.trans hpk)
    · have hlt := t.committed.pk_lt old hold
      have hle := Nat.le_trans h.nextPk_le hfresh
      omega

end Versions

/-! ## How far a party is -/

inductive Spot where
  | early
  | looking
  /-- It has found a row, and will delete it. -/
  | expired (pk : Nat)
  /-- It has found a row, and will change it and leave. -/
  | observing (pk : Nat)
  /-- It has found no row, and will insert one. -/
  | missed
  /-- It has inserted its row, and will commit. -/
  | stored
  | committed
  /-- An operation was refused. -/
  | failed
  /-- It has looked up and will commit, without a row of its own. -/
  | closing
  | out

/-- The party is between its lookup and the end of its transaction. -/
def Open : Spot -> Prop
  | .expired _ => True
  | .observing _ => True
  | .missed => True
  | .stored => True
  | .closing => True
  | _ => False

def Stores : Spot -> Prop
  | .stored => True
  | .committed => True
  | _ => False

/-- The rows that a party has found keep their keys, and its own row is a new
one. -/
structure Sane (k : key) (fits : Prop) (i : Bool) (t : Versions key value)
    (x : Spot) : Prop where
  writes : t.writer = some i -> Open x ∨ x = .failed
  found : forall pk, x = .expired pk ->
    pk < t.committed.nextPk ∧
      (forall row, row ∈ t.committed.rows -> row.pk = pk -> row.key = k) ∧
      forall row, row ∈ t.current.rows -> row.pk = pk -> row.key = k
  own : x = .stored -> t.writer = some i ∧
    exists row, row ∈ t.current.rows ∧ row.key = k ∧
      t.committed.nextPk ≤ row.pk
  fitting : Stores x -> fits

theorem sane_early {k : key} {fits : Prop} {i : Bool} (u : Table key value) :
    Sane k fits i ⟨u, u, none⟩ .early where
  writes := fun h => nomatch h
  found := fun _ h => nomatch h
  own := fun h => nomatch h
  fitting := False.elim

theorem Sane.ends {k : key} {fits : Prop} {i : Bool} {x : Spot}
    {t : Versions key value} (h : Sane k fits i t x)
    (hother : t.writer = some !i) {u : Table key value}
    (hnextPk : t.committed.nextPk ≤ u.nextPk)
    (hrows : forall pk, x = .expired pk ->
      forall row, row ∈ u.rows -> row.pk = pk -> row.key = k) :
    Sane k fits i ⟨u, u, none⟩ x where
  writes := fun hwriter => nomatch hwriter
  found := by
    intro pk hpk
    have hlt := (h.found pk hpk).left
    exact ⟨Nat.lt_of_lt_of_le hlt hnextPk, hrows pk hpk, hrows pk hpk⟩
  own := by
    intro hstored
    rw [(h.own hstored).left] at hother
    exact absurd (Option.some.inj hother).symm (Bool.not_ne_self i)
  fitting := h.fitting

theorem Sane.commit {k : key} {fits : Prop} {i : Bool} {x : Spot}
    {t : Versions key value} (hs : t.Sound) (h : Sane k fits i t x) :
    Sane k fits i (t.commit !i) x := by
  unfold Versions.commit
  split
  · rename_i hother
    exact h.ends hother hs.nextPk_le fun pk hpk => (h.found pk hpk).right.right
  · exact h

theorem Sane.rollback {k : key} {fits : Prop} {i : Bool} {x : Spot}
    {t : Versions key value} (h : Sane k fits i t x) :
    Sane k fits i (t.rollback !i) x := by
  unfold Versions.rollback
  split
  · rename_i hother
    exact h.ends hother (Nat.le_refl _)
      fun pk hpk => (h.found pk hpk).right.left
  · exact h

/-! ## The steps of a party -/

variable [DecidableEq key]

/-- What a party does that leaves the table as it sees it. -/
inductive Look (k : key) : Spot -> Table key value -> Spot -> Prop where
  | pass {x : Spot} {t : Table key value} (hx : x ≠ .looking) : Look k x t x
  | enter {t : Table key value} : Look k .early t .looking
  | leave {t : Table key value} : Look k .early t .out
  | close {t : Table key value} : Look k .missed t .closing
  | hit {t : Table key value} : Look k .looking t .closing
  | miss {t : Table key value} (h : t.findUnique k = none) :
      Look k .looking t .missed
  | expire {t : Table key value} {row : TableRow key value}
      (h : t.findUnique k = some row) : Look k .looking t (.expired row.pk)
  | observe {t : Table key value} {row : TableRow key value}
      (h : t.findUnique k = some row) : Look k .looking t (.observing row.pk)

inductive Write (k : key) :
    Spot -> Table key value -> Spot -> Table key value -> Prop where
  | delete {t u : Table key value} {pk : Nat} (h : t.delete pk = some u) :
      Write k (.expired pk) t .missed u
  | change {t u : Table key value} {pk : Nat} {f : value -> value}
      (h : t.update pk f = some u) : Write k (.observing pk) t .closing u
  | insert {t u : Table key value} {v : value} (h : t.create k v = some u) :
      Write k .missed t .stored u

inductive Refuse (k : key) : Spot -> Table key value -> Prop where
  | delete {t : Table key value} {pk : Nat} (h : t.delete pk = none) :
      Refuse k (.expired pk) t
  | change {t : Table key value} {pk : Nat} {f : value -> value}
      (h : t.update pk f = none) : Refuse k (.observing pk) t
  | insert {t : Table key value} {v : value} (h : t.create k v = none) :
      Refuse k .missed t

/-- A step of one party, with the tables before and after it; `fits` says
whether the columns take its row. -/
inductive Step (k : key) (fits : Prop) (i : Bool) :
    Spot -> Versions key value -> Spot -> Versions key value -> Prop where
  | look {x y : Spot} {t : Versions key value} (h : Look k x (t.view i) y) :
      Step k fits i x t y t
  | write {x y : Spot} {t : Versions key value} {u : Table key value}
      (hfree : t.writer ≠ some (!i)) (hfits : y = .stored -> fits)
      (h : Write k x t.current y u) : Step k fits i x t y (t.write i u)
  | refuse {x : Spot} {t : Versions key value}
      (hfree : t.writer ≠ some (!i)) (h : Refuse k x t.current) :
      Step k fits i x t .failed t
  | unfit {t : Versions key value} (h : ¬ fits) :
      Step k fits i .missed t .failed t
  | commit {t : Versions key value} :
      Step k fits i .stored t .committed (t.commit i)
  | close {t : Versions key value} :
      Step k fits i .closing t .out (t.commit i)
  | finish {x : Spot} {t : Versions key value} (h : x = .out ∨ x = .failed) :
      Step k fits i x t x (t.commit i)
  | rollback {t : Versions key value} :
      Step k fits i .failed t .failed (t.rollback i)

theorem eq_insert_of_create {k : key} {t t' : Table key value} {v : value}
    (h : t.create k v = some t') :
    exists hfree : t.findUnique k = none, t' = t.insert k v hfree := by
  unfold Table.create at h
  split at h
  · rename_i hfree
    exact ⟨hfree, (Option.some.inj h).symm⟩
  · cases h

theorem Write.rows {k : key} {x y : Spot} {t u : Table key value}
    (h : Write k x t y u) :
    t.nextPk ≤ u.nextPk ∧ forall row, row ∈ u.rows ->
      (exists old, old ∈ t.rows ∧ old.pk = row.pk ∧ old.key = row.key) ∨
        t.nextPk ≤ row.pk ∧ row.key = k := by
  cases h with
  | delete hdelete =>
      rw [Table.eq_erase_of_delete hdelete]
      refine ⟨Nat.le_refl _, ?_⟩
      intro row hrow
      exact Or.inl ⟨row, (Table.mem_erase.mp hrow).left, rfl, rfl⟩
  | change hupdate =>
      rw [Table.eq_edit_of_update hupdate]
      refine ⟨Nat.le_refl _, ?_⟩
      intro row hrow
      rcases Table.mem_edit.mp hrow with ⟨old, hold, rfl⟩
      exact Or.inl ⟨old, hold, (Table.editRow_pk _ _ _).symm,
        (Table.editRow_key _ _ _).symm⟩
  | insert hcreate =>
      rcases eq_insert_of_create hcreate with ⟨_, rfl⟩
      refine ⟨Nat.le_succ _, ?_⟩
      intro row hrow
      rcases List.mem_append.mp hrow with hold | hnew
      · exact Or.inl ⟨row, hold, rfl, rfl⟩
      · rw [List.mem_singleton.mp hnew]
        exact Or.inr ⟨Nat.le_refl _, rfl⟩

/-! ## What holds in every run -/

theorem Versions.Sound.step {k : key} {fits : Prop} {i : Bool} {x y : Spot}
    {t t' : Versions key value} (h : t.Sound)
    (hstep : Step k fits i x t y t') : t'.Sound := by
  cases hstep with
  | look _ => exact h
  | refuse _ _ => exact h
  | unfit _ => exact h
  | commit => exact h.commit i
  | close => exact h.commit i
  | finish _ => exact h.commit i
  | rollback => exact h.rollback i
  | write _ _ hwrite =>
      rcases hwrite.rows with ⟨hnextPk, hrows⟩
      apply h.write i hnextPk
      intro row hrow
      exact (hrows row hrow).imp_right And.left

theorem sane_of_expire {k : key} {fits : Prop} {i : Bool}
    {t : Versions key value} {row : TableRow key value} (hs : t.Sound)
    (h : Sane k fits i t .looking) (hfound : (t.view i).findUnique k = some row) :
    Sane k fits i t (.expired row.pk) := by
  have hview : t.view i = t.committed := by
    unfold Versions.view
    split
    · rfl
    · rename_i hother
      apply hs.same
      cases hwriter : t.writer with
      | none => rfl
      | some j =>
          by_cases hj : j = i
          · rw [hj] at hwriter
            rcases h.writes hwriter with hopen | hfailed
            · exact hopen.elim
            · cases hfailed
          · rw [hwriter, Bool.eq_not.mpr hj] at hother
            exact absurd rfl hother
  rw [hview] at hfound
  have hmem := Table.mem_of_findUnique hfound
  have hkey := Table.key_of_findUnique hfound
  constructor
  · exact fun _ => Or.inl True.intro
  · intro pk hpk
    rw [← Spot.expired.inj hpk]
    refine ⟨t.committed.pk_lt row hmem, ?_, ?_⟩
    · intro other hother hsame
      rw [Table.eq_of_pk hother hmem hsame]
      exact hkey
    · intro other hother hsame
      exact (hs.keys other hother row hmem hsame).trans hkey
  · exact fun hstored => nomatch hstored
  · exact False.elim

theorem Sane.step {k : key} {fits : Prop} {i : Bool} {x y : Spot}
    {t t' : Versions key value} (hs : t.Sound) (h : Sane k fits i t x)
    (hstep : Step k fits i x t y t') : Sane k fits i t' y := by
  -- a party that has not found a row and has no row of its own
  have hplain : forall {y : Spot} {t' : Versions key value},
      (t'.writer = some i -> Open y ∨ y = .failed) ->
      (forall pk, y ≠ .expired pk) -> y ≠ .stored ->
      (Stores y -> fits) -> Sane k fits i t' y := by
    intro y t' hwrites hexpired hstored hfits
    exact ⟨hwrites, fun pk hpk => absurd hpk (hexpired pk),
      fun hy => absurd hy hstored, hfits⟩
  cases hstep with
  | look hlook =>
      cases hlook with
      | pass _ => exact h
      | expire hfound => exact sane_of_expire hs h hfound
      | enter | leave =>
          apply hplain _ (fun _ => Spot.noConfusion) Spot.noConfusion
            False.elim
          intro hwriter
          rcases h.writes hwriter with hopen | hfailed
          · exact hopen.elim
          · cases hfailed
      | close | hit | miss _ | observe _ =>
          exact hplain (fun _ => Or.inl True.intro)
            (fun _ => Spot.noConfusion) Spot.noConfusion False.elim
  | write _ hfits hwrite =>
      cases hwrite with
      | delete _ | change _ =>
          exact hplain (fun _ => Or.inl True.intro)
            (fun _ => Spot.noConfusion) Spot.noConfusion False.elim
      | insert hcreate =>
          rcases eq_insert_of_create hcreate with ⟨hfree, rfl⟩
          refine ⟨fun _ => Or.inl True.intro, fun _ => Spot.noConfusion, ?_,
            fun _ => hfits rfl⟩
          intro _
          refine ⟨rfl, _, List.mem_append_right _ List.mem_cons_self, rfl, ?_⟩
          exact hs.nextPk_le
  | refuse _ _ | unfit _ =>
      exact hplain (fun _ => Or.inr rfl) (fun _ => Spot.noConfusion)
        Spot.noConfusion False.elim
  | commit =>
      exact hplain (fun hwriter => absurd hwriter (t.writer_commit_ne i))
        (fun _ => Spot.noConfusion) Spot.noConfusion
        fun _ => h.fitting True.intro
  | close =>
      exact hplain (fun hwriter => absurd hwriter (t.writer_commit_ne i))
        (fun _ => Spot.noConfusion) Spot.noConfusion False.elim
  | finish hx =>
      have hwriter : (t.commit i).writer = some i -> Open x ∨ x = .failed :=
        fun hwriter => absurd hwriter (t.writer_commit_ne i)
      rcases hx with rfl | rfl
      · exact hplain hwriter (fun _ => Spot.noConfusion) Spot.noConfusion
          False.elim
      · exact hplain hwriter (fun _ => Spot.noConfusion) Spot.noConfusion
          False.elim
  | rollback =>
      exact hplain (fun hwriter => absurd hwriter (t.writer_rollback_ne i))
        (fun _ => Spot.noConfusion) Spot.noConfusion False.elim

theorem Sane.other {k : key} {fits : Prop} {i : Bool} {x y y' : Spot}
    {t t' : Versions key value} (hs : t.Sound) (h : Sane k fits i t x)
    (hstep : Step k fits (!i) y t y' t') : Sane k fits i t' x := by
  cases hstep with
  | look _ | refuse _ _ | unfit _ => exact h
  | commit | close | finish _ => exact h.commit hs
  | rollback => exact h.rollback
  | write hfree _ hwrite =>
      rw [Bool.not_not] at hfree
      rcases hwrite.rows with ⟨_, hrows⟩
      refine ⟨?_, ?_, fun hstored => absurd (h.own hstored).left hfree,
        h.fitting⟩
      · intro hwriter
        exact absurd (Option.some.inj hwriter) (Bool.not_ne_self i)
      · intro pk hpk
        rcases h.found pk hpk with ⟨hlt, hcommitted, hcurrent⟩
        refine ⟨hlt, hcommitted, ?_⟩
        intro row hrow hrowPk
        rcases hrows row hrow with ⟨old, hold, holdPk, hkey⟩ | ⟨_, hkey⟩
        · rw [← hkey]
          exact hcurrent old hold (holdPk.trans hrowPk)
        · exact hkey

/-! ## One after the other -/

/-- The table is still as the party has found it, and nothing was refused. -/
def Holds (k : key) (u : Table key value) : Spot -> Prop
  | .expired pk => exists row, u.findUnique k = some row ∧ row.pk = pk
  | .observing pk => exists row, u.findUnique k = some row ∧ row.pk = pk
  | .missed => u.findUnique k = none
  | .failed => False
  | _ => True

theorem Holds.of_not_open {k : key} {u u' : Table key value} {x : Spot}
    (hx : ¬ Open x) (h : Holds k u x) : Holds k u' x := by
  cases x with
  | expired pk => exact absurd True.intro hx
  | observing pk => exact absurd True.intro hx
  | missed => exact absurd True.intro hx
  | failed => exact h
  | early | looking | stored | committed | closing | out => exact True.intro

/-- At most one of the two parties is between its lookup and its commit, and
the table is as it has found it. -/
structure Calm (k : key) (t : Versions key value) (x y : Spot) : Prop where
  alone : ¬ (Open x ∧ Open y)
  left : Holds k t.current x
  right : Holds k t.current y

theorem Calm.symm {k : key} {t : Versions key value} {x y : Spot}
    (h : Calm k t x y) : Calm k t y x where
  alone := fun hboth => h.alone hboth.symm
  left := h.right
  right := h.left

theorem Calm.look {k : key} {t : Versions key value} {x' y : Spot}
    (h : Calm k t .looking y) (hy : ¬ Open y)
    (hstep : Look k .looking t.current x') : Calm k t x' y := by
  refine ⟨fun hboth => hy hboth.right, ?_, h.right⟩
  cases hstep with
  | pass hx => exact absurd rfl hx
  | hit => exact True.intro
  | miss hnone => exact hnone
  | expire hfound => exact ⟨_, hfound, rfl⟩
  | observe hfound => exact ⟨_, hfound, rfl⟩

theorem Calm.step {k : key} {fits : Prop} {i : Bool} {x x' y : Spot}
    {t t' : Versions key value} (h : Calm k t x y) (hfits : fits)
    (hy : Sane k fits (!i) t y) (hstep : Step k fits i x t x' t')
    (halone : x = .looking -> ¬ Open y) : Calm k t' x' y := by
  have hother : Open x -> ¬ Open y := fun hx hy => h.alone ⟨hx, hy⟩
  cases hstep with
  | look hlook =>
      by_cases hlooking : x = .looking
      · rw [hlooking] at h hlook
        have hclosed := halone hlooking
        have hfree : t.writer ≠ some (!i) := by
          intro hwriter
          rcases hy.writes hwriter with hopen | hfailed
          · exact hclosed hopen
          · rw [hfailed] at h
            exact h.right
        rw [Versions.view_of_writer_ne hfree] at hlook
        exact h.look hclosed hlook
      · cases hlook with
        | pass _ => exact h
        | enter => exact ⟨fun hboth => hboth.left, True.intro, h.right⟩
        | leave => exact ⟨fun hboth => hboth.left, True.intro, h.right⟩
        | close =>
            exact ⟨fun hboth => hother True.intro hboth.right, True.intro,
              h.right⟩
        | hit | miss _ | expire _ | observe _ => exact absurd rfl hlooking
  | write _ _ hwrite =>
      cases hwrite with
      | delete hdelete =>
          have hclosed := hother True.intro
          rcases h.left with ⟨row, hfound, rfl⟩
          refine ⟨fun hboth => hclosed hboth.right, ?_,
            h.right.of_not_open hclosed⟩
          rw [Table.eq_erase_of_delete hdelete]
          exact Table.findUnique_erase_self hfound
      | change _ | insert _ =>
          have hclosed := hother True.intro
          exact ⟨fun hboth => hclosed hboth.right, True.intro,
            h.right.of_not_open hclosed⟩
  | refuse _ hrefuse =>
      cases hrefuse with
      | delete hrefused =>
          rcases h.left with ⟨row, hfound, rfl⟩
          rw [Table.delete_of_findUnique hfound] at hrefused
          cases hrefused
      | change hrefused =>
          rcases h.left with ⟨row, hfound, rfl⟩
          rw [Table.update_of_findUnique hfound] at hrefused
          cases hrefused
      | insert hrefused =>
          rw [Table.create_of_none _ h.left] at hrefused
          cases hrefused
  | unfit hunfit => exact absurd hfits hunfit
  | commit | close =>
      refine ⟨fun hboth => hboth.left, True.intro, ?_⟩
      rw [Versions.current_commit]
      exact h.right
  | finish hx =>
      refine ⟨h.alone, ?_, ?_⟩
      · rw [Versions.current_commit]
        exact h.left
      · rw [Versions.current_commit]
        exact h.right
  | rollback => exact h.left.elim

/-! ## Both at the same time -/

def Lost : Spot -> Prop
  | .observing _ => True
  | .failed => True
  | .closing => True
  | .out => True
  | _ => False

def Tries : Spot -> Prop
  | .expired _ => True
  | .missed => True
  | _ => False

def Blocked (k : key) (u : Table key value) : Spot -> Prop
  | .expired pk => forall row, row ∈ u.rows -> row.pk ≠ pk
  | .missed => exists row, u.findUnique k = some row
  | _ => False

/-- At most one of the two parties will store. -/
inductive Doomed (k : key) (t : Versions key value) : Spot -> Spot -> Prop where
  | left {x y : Spot} (h : Lost x) : Doomed k t x y
  | right {x y : Spot} (h : Lost y) : Doomed k t x y
  | both {x y : Spot} (hx : Tries x) (hy : Tries y) : Doomed k t x y
  | first {x y : Spot} (hx : Stores x) (h : Blocked k t.current y) :
      Doomed k t x y
  | second {x y : Spot} (h : Blocked k t.current x) (hy : Stores y) :
      Doomed k t x y

theorem Doomed.symm {k : key} {t : Versions key value} {x y : Spot}
    (h : Doomed k t x y) : Doomed k t y x := by
  cases h with
  | left h => exact .right h
  | right h => exact .left h
  | both hx hy => exact .both hy hx
  | first hx h => exact .second h hx
  | second h hy => exact .first hy h

theorem not_lost_of_stores {x : Spot} (h : Stores x) : ¬ Lost x := by
  cases x with
  | stored | committed => exact id
  | early | looking | expired _ | observing _ | missed | failed | closing
    | out => exact h.elim

theorem not_blocked_of_stores {k : key} {u : Table key value} {x : Spot}
    (h : Stores x) : ¬ Blocked k u x := by
  cases x with
  | stored | committed => exact id
  | early | looking | expired _ | observing _ | missed | failed | closing
    | out => exact h.elim

theorem not_tries_of_stores {x : Spot} (h : Stores x) : ¬ Tries x := by
  cases x with
  | stored | committed => exact id
  | early | looking | expired _ | observing _ | missed | failed | closing
    | out => exact h.elim

theorem not_doomed_of_stores {k : key} {t : Versions key value} {x y : Spot}
    (hx : Stores x) (hy : Stores y) : ¬ Doomed k t x y := by
  intro h
  cases h with
  | left h => exact not_lost_of_stores hx h
  | right h => exact not_lost_of_stores hy h
  | both h _ => exact not_tries_of_stores hx h
  | first _ h => exact not_blocked_of_stores hy h
  | second h _ => exact not_blocked_of_stores hx h

theorem doomed_of_stored {k : key} {fits : Prop} {i : Bool} {x' : Spot}
    {t : Versions key value} (hs : t.Sound) (hy : Sane k fits (!i) t .stored)
    (hlook : Look k .looking (t.view i) x') : Doomed k t x' .stored := by
  rcases hy.own rfl with ⟨hwriter, row, hrow, hkey, hfresh⟩
  rw [show t.view i = t.committed from if_pos hwriter] at hlook
  cases hlook with
  | pass hx => exact absurd rfl hx
  | hit => exact .left True.intro
  | observe _ => exact .left True.intro
  | miss _ =>
      refine .second ⟨row, ?_⟩ True.intro
      rw [← hkey]
      exact Table.findUnique_of_mem hrow
  | expire hfound =>
      rename_i old
      have hold := Table.mem_of_findUnique hfound
      refine .second ?_ True.intro
      intro other hother hpk
      have hsame := (hs.keys other hother old hold hpk).trans
        (Table.key_of_findUnique hfound)
      have hother' := Table.findUnique_of_mem hother
      rw [hsame, ← hkey, Table.findUnique_of_mem hrow] at hother'
      rw [← Option.some.inj hother'] at hpk
      have hlt := t.committed.pk_lt old hold
      omega

theorem doomed_of_looking {k : key} {fits : Prop} {i : Bool} {x' y : Spot}
    {t : Versions key value} (hs : t.Sound) (hy : Sane k fits (!i) t y)
    (hlook : Look k .looking (t.view i) x')
    (hspot : Lost y ∨ Tries y ∨ y = .stored) : Doomed k t x' y := by
  rcases hspot with hlost | htries | rfl
  · exact .right hlost
  · cases hlook with
    | pass hx => exact absurd rfl hx
    | hit => exact .left True.intro
    | observe _ => exact .left True.intro
    | miss _ => exact .both True.intro htries
    | expire _ => exact .both True.intro htries
  · exact doomed_of_stored hs hy hlook

theorem blocked_of_insert {k : key} {fits : Prop} {i : Bool} {y : Spot}
    {t : Versions key value} (hs : t.Sound) (hy : Sane k fits i t y)
    (htries : Tries y) {v : value} (hfree : t.current.findUnique k = none) :
    Blocked k (t.current.insert k v hfree) y := by
  cases y with
  | expired pk =>
      rcases hy.found pk rfl with ⟨hlt, _, hkeys⟩
      intro row hrow hpk
      rcases List.mem_append.mp hrow with hold | hnew
      · have hkey := hkeys row hold hpk
        have hnone := List.find?_eq_none.mp hfree row hold
        rw [hkey] at hnone
        exact absurd (beq_self_eq_true k) hnone
      · rw [List.mem_singleton.mp hnew] at hpk
        have hle := hs.nextPk_le
        change t.current.nextPk = pk at hpk
        omega
  | missed => exact ⟨_, Table.findUnique_insert_self _ hfree⟩
  | early | looking | observing _ | stored | committed | failed | closing
    | out => exact htries.elim

theorem Doomed.step {k : key} {fits : Prop} {i : Bool} {x x' y : Spot}
    {t t' : Versions key value} (h : Doomed k t x y) (hs : t.Sound)
    (hy : Sane k fits (!i) t y) (hstep : Step k fits i x t x' t') :
    Doomed k t' x' y := by
  cases hstep with
  | refuse _ _ | unfit _ | close | rollback => exact .left True.intro
  | finish hx =>
      rcases hx with rfl | rfl
      · exact .left True.intro
      · exact .left True.intro
  | look hlook =>
      cases hlook with
      | pass _ => exact h
      | leave | close | hit | observe _ => exact .left True.intro
      | enter | miss _ | expire _ =>
          cases h with
          | left h => exact h.elim
          | right h => exact .right h
          | both hx _ => exact hx.elim
          | first hx _ => exact hx.elim
          | second h _ => exact h.elim
  | commit =>
      cases h with
      | left h => exact h.elim
      | right h => exact .right h
      | both hx _ => exact hx.elim
      | first _ h =>
          refine .first True.intro ?_
          rw [Versions.current_commit]
          exact h
      | second h _ => exact h.elim
  | write _ _ hwrite =>
      cases hwrite with
      | change _ => exact .left True.intro
      | delete hdelete =>
          cases h with
          | left h => exact h.elim
          | right h => exact .right h
          | both _ hy => exact .both True.intro hy
          | first hx _ => exact hx.elim
          | second h _ =>
              unfold Table.delete at hdelete
              split at hdelete
              · rename_i hsome
                rcases Option.isSome_iff_exists.mp hsome with ⟨row, hfound⟩
                have hpk := List.find?_some hfound
                exact absurd (eq_of_beq hpk)
                  (h row (List.mem_of_find?_eq_some hfound))
              · cases hdelete
      | insert hcreate =>
          rcases eq_insert_of_create hcreate with ⟨hfree, rfl⟩
          cases h with
          | left h => exact h.elim
          | right h => exact .right h
          | both _ htries =>
              exact .first True.intro (blocked_of_insert hs hy htries hfree)
          | first hx _ => exact hx.elim
          | second h _ =>
              rcases h with ⟨row, hfound⟩
              rw [hfree] at hfound
              cases hfound

end TableRace
end CallgentApi
