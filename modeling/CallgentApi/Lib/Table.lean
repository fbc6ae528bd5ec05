import Mathlib

/-!
# Tables with a unique index

A row has a primary key that the table counts up, and a key that no other row
shares.  An operation that would break the index, or that names a row that is
not there, is refused.
-/

namespace CallgentApi

structure TableRow (key value : Type) where
  pk : Nat
  key : key
  value : value

structure Table (key value : Type) where
  rows : List (TableRow key value)
  nextPk : Nat
  pk_lt : forall r, r ∈ rows -> r.pk < nextPk
  pk_unique : rows.Pairwise fun a b => a.pk ≠ b.pk
  key_unique : rows.Pairwise fun a b => a.key ≠ b.key

namespace Table

variable {key value : Type}

def empty : Table key value where
  rows := []
  nextPk := 1
  pk_lt := fun _ h => nomatch h
  pk_unique := List.Pairwise.nil
  key_unique := List.Pairwise.nil

def findPk (t : Table key value) (pk : Nat) : Option (TableRow key value) :=
  t.rows.find? fun r => r.pk == pk

def erase (t : Table key value) (pk : Nat) : Table key value where
  rows := t.rows.filter fun r => r.pk != pk
  nextPk := t.nextPk
  pk_lt := fun r h => t.pk_lt r (List.mem_of_mem_filter h)
  pk_unique := t.pk_unique.filter _
  key_unique := t.key_unique.filter _

def editRow (pk : Nat) (f : value -> value) (r : TableRow key value) :
    TableRow key value :=
  if r.pk = pk then { r with value := f r.value } else r

@[simp] theorem editRow_pk (pk : Nat) (f : value -> value)
    (r : TableRow key value) : (editRow pk f r).pk = r.pk := by
  unfold editRow
  split
  · rfl
  · rfl

@[simp] theorem editRow_key (pk : Nat) (f : value -> value)
    (r : TableRow key value) : (editRow pk f r).key = r.key := by
  unfold editRow
  split
  · rfl
  · rfl

def edit (t : Table key value) (pk : Nat) (f : value -> value) :
    Table key value where
  rows := t.rows.map (editRow pk f)
  nextPk := t.nextPk
  pk_lt := by
    intro r h
    rcases List.mem_map.mp h with ⟨old, hold, rfl⟩
    rw [editRow_pk]
    exact t.pk_lt old hold
  pk_unique := by
    apply List.pairwise_map.mpr
    simpa using t.pk_unique
  key_unique := by
    apply List.pairwise_map.mpr
    simpa using t.key_unique

/-- Every value changed, with its key at hand. -/
def mapValues (t : Table key value) (f : key -> value -> value) :
    Table key value where
  rows := t.rows.map fun r => { r with value := f r.key r.value }
  nextPk := t.nextPk
  pk_lt := by
    intro r h
    rcases List.mem_map.mp h with ⟨old, hold, rfl⟩
    exact t.pk_lt old hold
  pk_unique := List.pairwise_map.mpr t.pk_unique
  key_unique := List.pairwise_map.mpr t.key_unique

theorem mem_mapValues {t : Table key value} {f : key -> value -> value}
    {r : TableRow key value} :
    r ∈ (t.mapValues f).rows <->
      exists old, old ∈ t.rows ∧ { old with value := f old.key old.value } = r :=
  List.mem_map

/-- The rows with what is seen of their values. -/
def image {other : Type} (t : Table key value) (f : value -> other) :
    Table key other where
  rows := t.rows.map fun r => ⟨r.pk, r.key, f r.value⟩
  nextPk := t.nextPk
  pk_lt := by
    intro r h
    rcases List.mem_map.mp h with ⟨old, hold, rfl⟩
    exact t.pk_lt old hold
  pk_unique := List.pairwise_map.mpr t.pk_unique
  key_unique := List.pairwise_map.mpr t.key_unique

theorem image_edit {other : Type} (t : Table key value) (pk : Nat)
    {f : value -> value} {g : value -> other} (h : forall v, g (f v) = g v) :
    (t.edit pk f).image g = t.image g := by
  have hrow : forall r : TableRow key value,
      (⟨(editRow pk f r).pk, (editRow pk f r).key, g (editRow pk f r).value⟩ :
        TableRow key other) = ⟨r.pk, r.key, g r.value⟩ := by
    intro r
    unfold editRow
    split
    · rw [h]
    · rfl
  unfold image edit
  congr 1
  simp only [List.map_map]
  exact List.map_congr_left fun r _ => hrow r

/-- `delete({ where: { pk } })`. -/
def delete (t : Table key value) (pk : Nat) : Option (Table key value) :=
  if (t.findPk pk).isSome then some (t.erase pk) else none

/-- `update({ where: { pk }, data })`. -/
def update (t : Table key value) (pk : Nat) (f : value -> value) :
    Option (Table key value) :=
  if (t.findPk pk).isSome then some (t.edit pk f) else none

theorem find?_of_pairwise {b : Type} [DecidableEq b]
    {rows : List (TableRow key value)} {f : TableRow key value -> b}
    (hdistinct : rows.Pairwise fun a b => f a ≠ f b) (h : r ∈ rows) :
    rows.find? (fun row => f row == f r) = some r := by
  induction rows with
  | nil => exact absurd h List.not_mem_nil
  | cons first rest ih =>
      rcases List.pairwise_cons.mp hdistinct with ⟨hfirst, hrest⟩
      rcases List.mem_cons.mp h with rfl | hmem
      · exact List.find?_cons_of_pos (beq_self_eq_true _)
      · rw [List.find?_cons_of_neg]
        · exact ih hrest hmem
        · simpa using hfirst r hmem

theorem findPk_of_mem {t : Table key value}
    {r : TableRow key value} (h : r ∈ t.rows) : t.findPk r.pk = some r :=
  find?_of_pairwise t.pk_unique h

theorem eq_of_pk {t : Table key value} {r q : TableRow key value}
    (hr : r ∈ t.rows) (hq : q ∈ t.rows) (h : r.pk = q.pk) : r = q := by
  have hfound := findPk_of_mem hr
  rw [h, findPk_of_mem hq] at hfound
  exact (Option.some.inj hfound).symm

theorem eq_erase_of_delete {t t' : Table key value} {pk : Nat}
    (h : t.delete pk = some t') : t' = t.erase pk := by
  unfold delete at h
  split at h
  · exact (Option.some.inj h).symm
  · cases h

theorem exists_row_of_update {t t' : Table key value} {pk : Nat}
    {f : value -> value} (h : t.update pk f = some t') :
    exists r, r ∈ t.rows ∧ r.pk = pk := by
  unfold update at h
  split at h
  · rename_i hsome
    rcases Option.isSome_iff_exists.mp hsome with ⟨r, hfound⟩
    refine ⟨r, List.mem_of_find?_eq_some hfound, ?_⟩
    have hpk := List.find?_some hfound
    simpa using hpk
  · cases h

theorem eq_edit_of_update {t t' : Table key value} {pk : Nat}
    {f : value -> value} (h : t.update pk f = some t') :
    t' = t.edit pk f := by
  unfold update at h
  split at h
  · exact (Option.some.inj h).symm
  · cases h

theorem mem_erase {t : Table key value} {pk : Nat}
    {r : TableRow key value} :
    r ∈ (t.erase pk).rows <-> r ∈ t.rows ∧ r.pk ≠ pk := by
  show r ∈ t.rows.filter _ <-> _
  rw [List.mem_filter]
  simp

theorem mem_edit {t : Table key value} {pk : Nat} {f : value -> value}
    {r : TableRow key value} :
    r ∈ (t.edit pk f).rows <->
      exists old, old ∈ t.rows ∧ editRow pk f old = r :=
  List.mem_map

def moveRow (pk : Nat) (k : key) (f : value -> value) (r : TableRow key value) :
    TableRow key value :=
  if r.pk = pk then { r with key := k, value := f r.value } else r

@[simp] theorem moveRow_pk (pk : Nat) (k : key) (f : value -> value)
    (r : TableRow key value) : (moveRow pk k f r).pk = r.pk := by
  unfold moveRow
  split
  · rfl
  · rfl

def Free (t : Table key value) (pk : Nat) (k : key) : Prop :=
  forall r, r ∈ t.rows -> r.key = k -> r.pk = pk

theorem pairwise_moveRow {rows : List (TableRow key value)} {pk : Nat}
    {k : key} (f : value -> value)
    (hpk : rows.Pairwise fun a b => a.pk ≠ b.pk)
    (hkey : rows.Pairwise fun a b => a.key ≠ b.key)
    (h : forall r, r ∈ rows -> r.key = k -> r.pk = pk) :
    (rows.map (moveRow pk k f)).Pairwise fun a b => a.key ≠ b.key := by
  apply List.pairwise_map.mpr
  apply (hpk.and hkey).imp_of_mem
  intro a b ha hb hne
  unfold moveRow
  by_cases hapk : a.pk = pk
  · have hbpk : ¬ b.pk = pk := fun hbpk => hne.left (hapk.trans hbpk.symm)
    rw [if_pos hapk, if_neg hbpk]
    exact fun heq => hbpk (h b hb heq.symm)
  · rw [if_neg hapk]
    by_cases hbpk : b.pk = pk
    · rw [if_pos hbpk]
      exact fun heq => hapk (h a ha heq)
    · rw [if_neg hbpk]
      exact hne.right

def move (t : Table key value) (pk : Nat) (k : key) (f : value -> value)
    (h : t.Free pk k) : Table key value where
  rows := t.rows.map (moveRow pk k f)
  nextPk := t.nextPk
  pk_lt := by
    intro r hr
    rcases List.mem_map.mp hr with ⟨old, hold, rfl⟩
    rw [moveRow_pk]
    exact t.pk_lt old hold
  pk_unique := by
    apply List.pairwise_map.mpr
    simpa using t.pk_unique
  key_unique := pairwise_moveRow f t.pk_unique t.key_unique h

theorem mem_move {t : Table key value} {pk : Nat} {k : key}
    {f : value -> value} {hfree : t.Free pk k} {r : TableRow key value} :
    r ∈ (t.move pk k f hfree).rows <->
      exists old, old ∈ t.rows ∧ moveRow pk k f old = r :=
  List.mem_map

theorem editRow_cases {t : Table key value} {found r : TableRow key value}
    (hfound : found ∈ t.rows) (hr : r ∈ t.rows) (f : value -> value) :
    editRow found.pk f r = r ∨
      r = found ∧
        editRow found.pk f r = { found with value := f found.value } := by
  unfold editRow
  by_cases hpk : r.pk = found.pk
  · have hsame := eq_of_pk hr hfound hpk
    rw [if_pos hpk, hsame]
    exact Or.inr ⟨rfl, rfl⟩
  · exact Or.inl (if_neg hpk)

section Unique

variable [DecidableEq key]

def findUnique (t : Table key value) (k : key) :
    Option (TableRow key value) :=
  t.rows.find? fun r => r.key == k

def insert (t : Table key value) (k : key) (v : value)
    (h : t.findUnique k = none) : Table key value where
  rows := t.rows ++ [⟨t.nextPk, k, v⟩]
  nextPk := t.nextPk + 1
  pk_lt := by
    intro r hr
    rcases List.mem_append.mp hr with hold | hnew
    · exact Nat.lt_succ_of_lt (t.pk_lt r hold)
    · rw [List.mem_singleton.mp hnew]
      exact Nat.lt_succ_self _
  pk_unique := by
    apply List.pairwise_append.mpr
    refine ⟨t.pk_unique, List.pairwise_singleton _ _, ?_⟩
    intro a ha b hb
    rw [List.mem_singleton.mp hb]
    exact Nat.ne_of_lt (t.pk_lt a ha)
  key_unique := by
    apply List.pairwise_append.mpr
    refine ⟨t.key_unique, List.pairwise_singleton _ _, ?_⟩
    intro a ha b hb
    rw [List.mem_singleton.mp hb]
    have hother := List.find?_eq_none.mp h a ha
    simpa using hother

/-- `create({ data })`. -/
def create (t : Table key value) (k : key) (v : value) :
    Option (Table key value) :=
  if h : t.findUnique k = none then some (t.insert k v h) else none

/-! ## What is found -/

variable {t : Table key value} {k : key} {r : TableRow key value}

theorem mem_of_findUnique (h : t.findUnique k = some r) : r ∈ t.rows :=
  List.mem_of_find?_eq_some h

theorem key_of_findUnique (h : t.findUnique k = some r) : r.key = k := by
  have hfound := List.find?_some h
  simpa using hfound

theorem findUnique_of_mem (h : r ∈ t.rows) :
    t.findUnique r.key = some r :=
  find?_of_pairwise t.key_unique h

theorem findPk_of_findUnique (h : t.findUnique k = some r) :
    t.findPk r.pk = some r :=
  findPk_of_mem (mem_of_findUnique h)

/-! ## What is found after an operation -/

theorem findUnique_edit (pk : Nat) (f : value -> value) :
    (t.edit pk f).findUnique k = (t.findUnique k).map (editRow pk f) := by
  show (t.rows.map (editRow pk f)).find? _ = _
  rw [List.find?_map]
  unfold findUnique
  congr 2
  funext row
  exact congrArg (· == k) (editRow_key pk f row)

theorem findUnique_edit_cases {edited found : TableRow key value} {other : key}
    {f : value -> value} (h : t.findUnique k = some edited)
    (hfound : (t.edit edited.pk f).findUnique other = some found) :
    (other = k ∧ found.value = f edited.value) ∨
      (other ≠ k ∧ t.findUnique other = some found) := by
  rw [findUnique_edit] at hfound
  rcases Option.map_eq_some_iff.mp hfound with ⟨old, hold, hrow⟩
  by_cases hother : other = k
  · left
    rw [hother, h] at hold
    refine ⟨hother, ?_⟩
    rw [← hrow, ← Option.some.inj hold]
    simp [editRow]
  · right
    have hpk : old.pk ≠ edited.pk := by
      intro hpk
      have heq := eq_of_pk (mem_of_findUnique hold) (mem_of_findUnique h) hpk
      apply hother
      rw [← key_of_findUnique hold, heq]
      exact key_of_findUnique h
    have hsame : old = found := by
      rw [← hrow]
      exact (if_neg hpk).symm
    exact ⟨hother, hsame ▸ hold⟩

theorem findUnique_erase_self (h : t.findUnique k = some r) :
    (t.erase r.pk).findUnique k = none := by
  apply List.find?_eq_none.mpr
  intro row hrow hkey
  rcases List.mem_filter.mp hrow with ⟨hmem, hpk⟩
  have hfound := findUnique_of_mem hmem
  rw [of_decide_eq_true hkey, h] at hfound
  rw [Option.some.inj hfound] at hpk
  simp at hpk

theorem findUnique_of_erase {pk : Nat}
    (h : (t.erase pk).findUnique k = some r) : t.findUnique k = some r := by
  have hfound := findUnique_of_mem (mem_erase.mp (mem_of_findUnique h)).left
  rw [key_of_findUnique h] at hfound
  exact hfound

theorem findUnique_erase_of_ne {other : key} (h : t.findUnique k = some r)
    (hne : other ≠ k) :
    (t.erase r.pk).findUnique other = t.findUnique other := by
  cases hfound : t.findUnique other with
  | none =>
      cases herased : (t.erase r.pk).findUnique other with
      | none => rfl
      | some q =>
          rw [findUnique_of_erase herased] at hfound
          cases hfound
  | some q =>
      have hpk : q.pk ≠ r.pk := by
        intro hpk
        have hsame :=
          eq_of_pk (mem_of_findUnique hfound) (mem_of_findUnique h) hpk
        apply hne
        rw [← key_of_findUnique hfound, hsame]
        exact key_of_findUnique h
      have hmem : q ∈ (t.erase r.pk).rows :=
        mem_erase.mpr ⟨mem_of_findUnique hfound, hpk⟩
      have hleft := findUnique_of_mem hmem
      rw [key_of_findUnique hfound] at hleft
      exact hleft

theorem findUnique_edit_self (h : t.findUnique k = some r)
    (f : value -> value) :
    (t.edit r.pk f).findUnique k = some { r with value := f r.value } := by
  rw [findUnique_edit, h]
  show some (editRow r.pk f r) = _
  unfold editRow
  rw [if_pos rfl]

theorem findUnique_edit_of_ne {other : key} (h : t.findUnique k = some r)
    (hne : other ≠ k) (f : value -> value) :
    (t.edit r.pk f).findUnique other = t.findUnique other := by
  cases hedited : (t.edit r.pk f).findUnique other with
  | none =>
      rw [findUnique_edit] at hedited
      exact (Option.map_eq_none_iff.mp hedited).symm
  | some found =>
      rcases findUnique_edit_cases h hedited with ⟨heq, _⟩ | ⟨_, hsame⟩
      · exact absurd heq hne
      · exact hsame.symm

theorem findUnique_insert_self (v : value) (h : t.findUnique k = none) :
    (t.insert k v h).findUnique k = some ⟨t.nextPk, k, v⟩ :=
  findUnique_of_mem (r := ⟨t.nextPk, k, v⟩)
    (List.mem_append_right _ List.mem_cons_self)

theorem findUnique_insert_of_ne (v : value) (h : t.findUnique k = none)
    {other : key} (hne : other ≠ k) :
    (t.insert k v h).findUnique other = t.findUnique other := by
  have hnew : (k == other) = false := by
    simpa using Ne.symm hne
  unfold findUnique insert
  rw [List.find?_append]
  simp [hnew]

/-- `delete({ where: { key } })`. -/
def deleteUnique (t : Table key value) (k : key) :
    Option (Table key value) :=
  (t.findUnique k).map fun r => t.erase r.pk

/-! ## A row under another key -/

instance (t : Table key value) (pk : Nat) (k : key) :
    Decidable (t.Free pk k) :=
  List.decidableBAll _ _

/-- `update({ where: { pk }, data })` with a key in its data; it is refused
where another row has the key. -/
def updateKey (t : Table key value) (pk : Nat) (k : key)
    (f : value -> value) : Option (Table key value) :=
  if h : t.Free pk k then some (t.move pk k f h) else none

theorem exists_move_of_updateKey {t' : Table key value} {pk : Nat}
    {f : value -> value} (h : t.updateKey pk k f = some t') :
    exists hfree : t.Free pk k, t' = t.move pk k f hfree := by
  unfold updateKey at h
  split at h
  · exact ⟨_, (Option.some.inj h).symm⟩
  · cases h

theorem findUnique_move_self {found : TableRow key value}
    (hfound : t.findUnique k = some found) (f : value -> value)
    (hfree : t.Free found.pk k) (other : key) :
    (t.move found.pk k f hfree).findUnique other =
      (t.findUnique other).map (moveRow found.pk k f) := by
  show (t.rows.map (moveRow found.pk k f)).find? _ = _
  rw [List.find?_map]
  unfold findUnique
  congr 1
  apply List.find?_congr
  intro row hrow
  show ((moveRow found.pk k f row).key == other) = (row.key == other)
  unfold moveRow
  by_cases hpk : row.pk = found.pk
  · have hsame := eq_of_pk hrow (mem_of_findUnique hfound) hpk
    rw [if_pos hpk, hsame, key_of_findUnique hfound]
  · rw [if_neg hpk]

theorem free_of_findUnique (hfound : t.findUnique k = some r) :
    t.Free r.pk k := by
  intro row hrow hkey
  have hsame := findUnique_of_mem hrow
  rw [hkey, hfound] at hsame
  rw [Option.some.inj hsame]

theorem exists_insert_of_create {t' : Table key value} {v : value}
    (h : t.create k v = some t') :
    exists hnew : t.findUnique k = none, t' = t.insert k v hnew := by
  unfold create at h
  split at h
  · exact ⟨_, (Option.some.inj h).symm⟩
  · cases h

theorem mem_insert {v : value} {hnew : t.findUnique k = none} :
    r ∈ (t.insert k v hnew).rows <-> r ∈ t.rows ∨ r = ⟨t.nextPk, k, v⟩ := by
  show r ∈ t.rows ++ [_] <-> _
  rw [List.mem_append, List.mem_singleton]

/-! ## Which operations are refused -/

theorem create_of_none (v : value) (h : t.findUnique k = none) :
    t.create k v = some (t.insert k v h) :=
  dif_pos h

theorem create_of_some (v : value) (h : t.findUnique k = some r) :
    t.create k v = none := by
  unfold create
  rw [dif_neg]
  rw [h]
  exact Option.some_ne_none r

theorem update_of_findUnique (h : t.findUnique k = some r)
    (f : value -> value) : t.update r.pk f = some (t.edit r.pk f) := by
  unfold update
  rw [findPk_of_findUnique h]
  rfl

theorem delete_of_findUnique (h : t.findUnique k = some r) :
    t.delete r.pk = some (t.erase r.pk) := by
  unfold delete
  rw [findPk_of_findUnique h]
  rfl

theorem findUnique_image {other : Type} (t : Table key value)
    (g : value -> other) (k : key) :
    (t.image g).findUnique k =
      (t.findUnique k).map fun r => ⟨r.pk, r.key, g r.value⟩ := by
  unfold findUnique image
  rw [List.find?_map]
  rfl

/-! ## Writing under a key -/

/-- `upsert({ where: { key } })`. -/
def upsert (t : Table key value) (k : key) (v : value) : Table key value :=
  match h : t.findUnique k with
  | some r => t.edit r.pk fun _ => v
  | none => t.insert k v h

theorem findUnique_upsert_self (t : Table key value) (k : key) (v : value) :
    exists r, (t.upsert k v).findUnique k = some r ∧ r.value = v := by
  unfold upsert
  split
  · rename_i r hfound
    exact ⟨_, findUnique_edit_self hfound fun _ => v, rfl⟩
  · rename_i hnone
    exact ⟨_, findUnique_insert_self v hnone, rfl⟩

theorem findUnique_upsert_of_ne (t : Table key value) (v : value)
    {other : key} (hne : other ≠ k) :
    (t.upsert k v).findUnique other = t.findUnique other := by
  unfold upsert
  split
  · rename_i r hfound
    exact findUnique_edit_of_ne hfound hne fun _ => v
  · rename_i hnone
    exact findUnique_insert_of_ne v hnone hne

theorem mem_upsert {v : value} (h : r ∈ (t.upsert k v).rows) :
    r ∈ t.rows ∨ r.key = k ∧ r.value = v := by
  unfold upsert at h
  split at h
  · rename_i found hfound
    rcases mem_edit.mp h with ⟨old, hold, hedit⟩
    rcases editRow_cases (mem_of_findUnique hfound) hold fun _ => v with
      hsame | ⟨_, hnew⟩
    · rw [← hedit, hsame]
      exact Or.inl hold
    · have hkey : found.key = k := key_of_findUnique hfound
      rw [← hedit, hnew]
      exact Or.inr ⟨hkey, rfl⟩
  · rcases mem_insert.mp h with hold | hnew
    · exact Or.inl hold
    · rw [hnew]
      exact Or.inr ⟨rfl, rfl⟩

end Unique

end Table
end CallgentApi
