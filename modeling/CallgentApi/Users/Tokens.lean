import CallgentApi.Lib.Effect
import CallgentApi.Lib.Table
import CallgentApi.Cached.Service

/-!
# `AuthTokensService`

A token is a row with a payload and a time of expiry.  It is looked up with
its type; a row that has expired is deleted by the lookup that finds it, and
so is one that is looked up once.
-/

namespace CallgentApi
namespace Users

open Js Event Effect

inductive TokenType where
  | jwt
  | apiKey
deriving DecidableEq

/-- `exp` is in seconds; the claims are what else the payload has. -/
structure JwtPayload where
  jti : Option Text
  exp : Option Int
  claims : List (Text × Json)

structure AuthToken where
  type : TokenType
  payload : JwtPayload
  revoked : Bool
  expiresAt : Option Int

abbrev AuthTokens := Table Text AuthToken

/-! ## Operations -/

/-- `prisma.authToken.create`, which refuses long tokens and those there
are. -/
def createToken (token : Text) (row : AuthToken) :
    Effect AuthTokens Thrown Unit := do
  if 30 < token.length then throw (Cached.databaseError "P2000".toList)
  match (← get).create token row with
  | none => throw Cached.uniqueConstraint
  | some tokens => set tokens

/-- `new Date(time)` is a date. -/
def isDate (time : Int) : Bool :=
  time.natAbs ≤ 8640000000000000

/-- When a payload issued at `now` expires; no expiry is zero seconds too. -/
def expiry (now : Nat) (payload : JwtPayload) : Option Int :=
  (payload.exp.filter fun seconds => seconds != 0).map fun seconds =>
    now + seconds * 1000

/-- `payload.jti || (payload.jti = Utils.uuid(..))`, with the id drawn. -/
def tokenOf (payload : JwtPayload) (drawn : Text) : Text :=
  (truthy payload.jti).getD drawn

def issue (now : Nat) (drawn : Text) (payload : JwtPayload)
    (type : TokenType) : Effect AuthTokens Thrown Text := do
  let token := tokenOf payload drawn
  let expiresAt := expiry now payload
  if !expiresAt.all isDate then throw (.plain "Invalid Date".toList)
  createToken token ⟨type, { payload with jti := some token }, false, expiresAt⟩
  return token

/-- `expiresAt < new Date()`, where no time counts as zero. -/
def expired (now : Nat) (row : AuthToken) : Bool :=
  row.expiresAt.getD 0 < now

/-- `findFirst({ where: { token, type } })`. -/
def findToken (tokens : AuthTokens) (token : Text) (type : TokenType) :
    Option (TableRow Text AuthToken) :=
  (tokens.findUnique token).filter fun row => row.value.type == type

def deleteToken (pk : Nat) : Effect AuthTokens Thrown Unit := do
  match (← get).delete pk with
  | none => throw (Cached.databaseError "P2025".toList)
  | some tokens => set tokens

def verify (now : Nat) (jtiToken : Text) (type : TokenType) (once : Bool) :
    Effect AuthTokens Thrown (Option JwtPayload) := do
  match findToken (← get) jtiToken type with
  | none => return none
  | some authToken =>
      let expired := expired now authToken.value
      if once || expired then deleteToken authToken.pk
      if !expired && !authToken.value.revoked then
        return some authToken.value.payload
      else return none

def revoke (token : Text) (type : TokenType) :
    Effect AuthTokens Thrown Unit := do
  let tokens ← get
  match type, tokens.findUnique token with
  | .jwt, some row =>
      set (tokens.edit row.pk fun r => { r with revoked := true })
  | .jwt, none => createToken token ⟨.jwt, ⟨none, none, []⟩, true, none⟩
  | .apiKey, some row => deleteToken row.pk
  | .apiKey, none => throw (Cached.databaseError "P2025".toList)

/-! ## Histories -/

inductive Call where
  | issue (payload : JwtPayload) (type : TokenType) (drawn : Text)
  | verify (token : Text) (type : TokenType) (once : Bool)
  | revoke (token : Text) (type : TokenType)

inductive Answer where
  | token (token : Text)
  | payload (found : Option JwtPayload)
  | done

structure Timed where
  time : Nat
  call : Call

def perform (c : Timed) : Effect AuthTokens Thrown Answer := do
  match c.call with
  | .issue payload type drawn =>
      return .token (← issue c.time drawn payload type)
  | .verify token type once =>
      return .payload (← verify c.time token type once)
  | .revoke token type =>
      revoke token type
      return .done

structure Entry where
  timed : Timed
  answer : Except Thrown Answer

structure Journal where
  tokens : AuthTokens
  entries : List Entry

namespace Journal

def empty : Journal := ⟨.empty, []⟩

def add (j : Journal) (c : Timed) : Journal where
  tokens := (exec (perform c) j.tokens).2
  entries := j.entries ++ [⟨c, (exec (perform c) j.tokens).1⟩]

def after (calls : List Timed) : Journal :=
  calls.foldl add empty

end Journal

/-! ## What a token stands for -/

/-- What has become of a token since it was last issued. -/
structure Standing where
  type : TokenType
  payload : JwtPayload
  issuedAt : Nat
  revoked : Bool
  consumed : Bool

namespace Standing

/-- What an entry means for a token: it is issued, it is revoked, or a lookup
with `once` gives its payload. -/
def next (token : Text) (st : Option Standing) (e : Entry) :
    Option Standing :=
  match e.timed.call, e.answer with
  | .issue payload type _, .ok (.token issued) =>
      if issued = token then
        some ⟨type, { payload with jti := some token }, e.timed.time, false,
          false⟩
      else st
  | .verify verified _ true, .ok (.payload (some _)) =>
      if verified = token then st.map fun st => { st with consumed := true }
      else st
  | .revoke named _, .ok _ =>
      if named = token then st.map fun st => { st with revoked := true }
      else st
  | _, _ => st

def of (entries : List Entry) (token : Text) : Option Standing :=
  entries.foldl (next token) none

/-- Neither revoked nor consumed, and of the type that is asked for. -/
def good (st : Standing) (type : TokenType) : Bool :=
  st.type == type && !st.revoked && !st.consumed

/-- The seconds of the payload have not elapsed. -/
def inTime (st : Standing) (now : Nat) : Bool :=
  match st.payload.exp with
  | none => true
  | some seconds => now ≤ st.issuedAt + seconds * 1000

/-- The token has no expiry: none, or zero seconds that have not elapsed. -/
def unlimited (st : Standing) (now : Nat) : Bool :=
  0 < now &&
    match st.payload.exp with
    | none => true
    | some seconds => seconds == 0 && now ≤ st.issuedAt

end Standing

/-- What a lookup should give: the payload of a token that was issued with the
type, is neither revoked nor consumed and is in time. -/
def expected (entries : List Entry) (now : Nat) (token : Text)
    (type : TokenType) : Option JwtPayload :=
  match Standing.of entries token with
  | none => none
  | some st =>
      if st.good type && st.inTime now then some st.payload else none

def Unlimited (entries : List Entry) (now : Nat) (token : Text)
    (type : TokenType) : Prop :=
  exists st, Standing.of entries token = some st ∧ st.good type = true ∧
    st.unlimited now = true

/-! ## The operations -/

section Operations

variable {s next : AuthTokens} {token : Text}

def found (tokens : AuthTokens) (token : Text) : Option AuthToken :=
  (tokens.findUnique token).map TableRow.value

theorem found_insert (row : AuthToken) (h : s.findUnique token = none)
    (other : Text) :
    found (s.insert token row h) other =
      if other = token then some row else found s other := by
  unfold found
  split
  · rename_i heq
    rw [heq, Table.findUnique_insert_self]
    rfl
  · rename_i hne
    rw [Table.findUnique_insert_of_ne row h hne]

theorem found_erase {row : TableRow Text AuthToken}
    (h : s.findUnique token = some row) (other : Text) :
    found (s.erase row.pk) other =
      if other = token then none else found s other := by
  unfold found
  split
  · rename_i heq
    rw [heq, Table.findUnique_erase_self h]
    rfl
  · rename_i hne
    rw [Table.findUnique_erase_of_ne h hne]

theorem found_edit {row : TableRow Text AuthToken}
    (h : s.findUnique token = some row) (f : AuthToken -> AuthToken)
    (other : Text) :
    found (s.edit row.pk f) other =
      if other = token then some (f row.value) else found s other := by
  unfold found
  split
  · rename_i heq
    rw [heq, Table.findUnique_edit_self h]
    rfl
  · rename_i hne
    rw [Table.findUnique_edit_of_ne h hne]

theorem exec_createToken (s : AuthTokens) (token : Text) (row : AuthToken) :
    (exists e, exec (createToken token row) s = (.error e, s)) ∨
      exists hnew : s.findUnique token = none,
        exec (createToken token row) s = (.ok (), s.insert token row hnew) := by
  unfold createToken
  split
  · exact Or.inl ⟨_, rfl⟩
  · show (exists e, exec (match s.create token row with
          | none => throw Cached.uniqueConstraint
          | some tokens => set tokens) s = (.error e, s)) ∨
        exists hnew, exec (match s.create token row with
          | none => throw Cached.uniqueConstraint
          | some tokens => set tokens) s = (.ok (), s.insert token row hnew)
    by_cases hnew : s.findUnique token = none
    · apply Or.inr
      exists hnew
      rw [Table.create_of_none row hnew]
      rfl
    · apply Or.inl
      exists Cached.uniqueConstraint
      have hcreate : s.create token row = none := by
        unfold Table.create
        rw [dif_neg hnew]
      rw [hcreate]
      rfl

theorem exec_issue (now : Nat) (drawn : Text) (payload : JwtPayload)
    (type : TokenType) :
    (exists e, exec (issue now drawn payload type) s = (.error e, s)) ∨
      exists hnew : s.findUnique (tokenOf payload drawn) = none,
        exec (issue now drawn payload type) s =
          (.ok (tokenOf payload drawn), s.insert (tokenOf payload drawn)
            ⟨type, { payload with jti := some (tokenOf payload drawn) }, false,
              expiry now payload⟩ hnew) := by
  unfold issue
  dsimp only
  split
  · exact Or.inl ⟨_, rfl⟩
  · rcases exec_createToken s (tokenOf payload drawn) ⟨type,
      { payload with jti := some (tokenOf payload drawn) }, false,
      expiry now payload⟩ with ⟨e, hfail⟩ | ⟨hnew, hcreate⟩
    · apply Or.inl
      exists e
      exact exec_bind_of_error hfail _
    · apply Or.inr
      exists hnew
      rw [exec_bind_of_ok hcreate]
      rfl

theorem exec_verify_none {type : TokenType}
    (h : findToken s token type = none) (now : Nat) (once : Bool) :
    exec (verify now token type once) s = (.ok none, s) := by
  unfold verify
  rw [exec_bind_of_ok (exec_get s), h]
  rfl

theorem exec_verify_some {type : TokenType} {row : TableRow Text AuthToken}
    (h : findToken s token type = some row) (now : Nat) (once : Bool) :
    exec (verify now token type once) s =
      (.ok (if !expired now row.value && !row.value.revoked then
          some row.value.payload else none),
        if once || expired now row.value then s.erase row.pk else s) := by
  have hrow : s.findUnique token = some row :=
    (Option.filter_eq_some_iff.mp h).left
  have hdelete : exec (deleteToken row.pk) s = (.ok (), s.erase row.pk) := by
    unfold deleteToken
    rw [exec_bind_of_ok (exec_get s), Table.delete_of_findUnique hrow]
    rfl
  unfold verify
  rw [exec_bind_of_ok (exec_get s), h]
  dsimp only
  split
  · rw [exec_bind_of_ok hdelete]
    split
    · rfl
    · rfl
  · split
    · rfl
    · rfl

theorem exec_revoke (s : AuthTokens) (token : Text) (type : TokenType) :
    (exists e, exec (revoke token type) s = (.error e, s)) ∨
      exists s', exec (revoke token type) s = (.ok (), s') ∧
        (forall row, found s' token = some row -> row.revoked = true) ∧
        forall other, other ≠ token -> found s' other = found s other := by
  unfold revoke
  rw [exec_bind_of_ok (exec_get s)]
  cases hfound : s.findUnique token with
  | none =>
      cases type with
      | jwt =>
          rcases exec_createToken s token
            ⟨.jwt, ⟨none, none, []⟩, true, none⟩ with
            ⟨e, hfail⟩ | ⟨hnew, hcreate⟩
          · exact Or.inl ⟨e, hfail⟩
          · apply Or.inr
            exists s.insert token ⟨.jwt, ⟨none, none, []⟩, true, none⟩ hnew
            constructor
            · exact hcreate
            constructor
            · intro row hrow
              rw [found_insert, if_pos rfl] at hrow
              rw [← Option.some.inj hrow]
            · intro other hne
              rw [found_insert, if_neg hne]
      | apiKey => exact Or.inl ⟨_, rfl⟩
  | some row =>
      apply Or.inr
      cases type with
      | jwt =>
          exists s.edit row.pk fun r => { r with revoked := true }
          constructor
          · rfl
          constructor
          · intro edited hedited
            rw [found_edit hfound, if_pos rfl] at hedited
            rw [← Option.some.inj hedited]
          · intro other hne
            rw [found_edit hfound, if_neg hne]
      | apiKey =>
          exists s.erase row.pk
          constructor
          · unfold deleteToken
            dsimp only
            rw [exec_bind_of_ok (exec_get s), Table.delete_of_findUnique hfound]
            rfl
          constructor
          · intro erased herased
            rw [found_erase hfound, if_pos rfl] at herased
            cases herased
          · intro other hne
            rw [found_erase hfound, if_neg hne]

end Operations

/-! ## What is in the table against what has been done -/

/-- The row of a token and what the token stands for, up to the time `last`:
it is barred on both sides, it is good on both, or it has expired and the row
is gone. -/
inductive Stands (last : Nat) : Option AuthToken -> Option Standing -> Prop
  | barred {row : Option AuthToken} {st : Option Standing}
      (hrow : forall r, row = some r -> r.revoked = true)
      (hst : forall s, st = some s -> s.revoked = true ∨ s.consumed = true) :
      Stands last row st
  | good {s : Standing} (hissued : s.issuedAt ≤ last)
      (hrevoked : s.revoked = false) (hconsumed : s.consumed = false) :
      Stands last
        (some ⟨s.type, s.payload, false, expiry s.issuedAt s.payload⟩) (some s)
  | elapsed {s : Standing} (hissued : s.issuedAt ≤ last)
      (h : (expiry s.issuedAt s.payload).getD 0 < last) :
      Stands last none (some s)

theorem Stands.mono {last now : Nat} (h : last ≤ now) {row : Option AuthToken}
    {st : Option Standing} (hst : Stands last row st) : Stands now row st := by
  cases hst with
  | barred hrow hst => exact .barred hrow hst
  | good hissued hrevoked hconsumed =>
      exact .good (Nat.le_trans hissued h) hrevoked hconsumed
  | elapsed hissued helapsed =>
      have hnow : ((last : Nat) : Int) ≤ now := Int.ofNat_le.mpr h
      exact .elapsed (Nat.le_trans hissued h) (Int.lt_of_lt_of_le helapsed hnow)

def Journal.Faithful (last : Nat) (j : Journal) : Prop :=
  forall token, Stands last (found j.tokens token)
    (Standing.of j.entries token)

theorem of_append (entries : List Entry) (e : Entry) (token : Text) :
    Standing.of (entries ++ [e]) token =
      Standing.next token (Standing.of entries token) e := by
  unfold Standing.of
  rw [List.foldl_append]
  rfl

section Faithful

variable {j : Journal} {last now : Nat} {token : Text}

theorem stands_issue (hle : last ≤ now) (h : j.Faithful last)
    (payload : JwtPayload) (type : TokenType) (drawn : Text) :
    (j.add ⟨now, .issue payload type drawn⟩).Faithful now := by
  intro token
  have hold := (h token).mono hle
  unfold Journal.add
  rw [of_append]
  unfold perform
  dsimp only
  rcases exec_issue (s := j.tokens) now drawn payload type with
    ⟨e, hfail⟩ | ⟨hnew, hissue⟩
  · rw [exec_bind_of_error hfail]
    exact hold
  · rw [exec_bind_of_ok hissue]
    show Stands now (found (j.tokens.insert _ _ hnew) token)
      (if tokenOf payload drawn = token then _ else _)
    rw [found_insert]
    by_cases htoken : token = tokenOf payload drawn
    · rw [if_pos htoken, if_pos htoken.symm, htoken]
      exact .good (s := ⟨type, { payload with
        jti := some (tokenOf payload drawn) }, now, false, false⟩)
        (Nat.le_refl now) rfl rfl
    · rw [if_neg htoken, if_neg fun heq => htoken heq.symm]
      exact hold

theorem stands_revoke (hle : last ≤ now) (h : j.Faithful last)
    (named : Text) (type : TokenType) :
    (j.add ⟨now, .revoke named type⟩).Faithful now := by
  intro token
  have hold := (h token).mono hle
  unfold Journal.add
  rw [of_append]
  unfold perform
  dsimp only
  rcases exec_revoke j.tokens named type with
    ⟨e, hfail⟩ | ⟨s', hrevoke, hself, hothers⟩
  · rw [exec_bind_of_error hfail]
    exact hold
  · rw [exec_bind_of_ok hrevoke]
    show Stands now (found s' token) (if named = token then _ else _)
    by_cases htoken : named = token
    · rw [if_pos htoken]
      apply Stands.barred
      · intro row hrow
        exact hself row (htoken ▸ hrow)
      · intro st hst
        rcases Option.map_eq_some_iff.mp hst with ⟨old, _, hrevoked⟩
        rw [← hrevoked]
        exact Or.inl rfl
    · rw [if_neg htoken, hothers token fun heq => htoken heq.symm]
      exact hold

theorem next_verify_of_ne {verified : Text} (hne : verified ≠ token)
    (st : Option Standing) (type : TokenType) (once : Bool)
    (answer : Except Thrown Answer) :
    Standing.next token st ⟨⟨now, .verify verified type once⟩, answer⟩ =
      st := by
  unfold Standing.next
  split
  · rename_i hcall _
    cases hcall
  · rename_i hcall _
    cases hcall
    exact if_neg hne
  · rename_i hcall _
    cases hcall
  · rfl

theorem next_verify_none (verified : Text) (st : Option Standing)
    (type : TokenType) (once : Bool) :
    Standing.next token st
      ⟨⟨now, .verify verified type once⟩, .ok (.payload none)⟩ = st := by
  cases once with
  | true => rfl
  | false => rfl

theorem stands_found {row : AuthToken} {st : Option Standing}
    (h : Stands now (some row) st) (type : TokenType) (once : Bool) :
    Stands now (if once || expired now row then none else some row)
      (Standing.next token st ⟨⟨now, .verify token type once⟩,
        .ok (.payload (if !expired now row && !row.revoked then
          some row.payload else none))⟩) := by
  cases h with
  | barred hrow hst =>
      have hrevoked : row.revoked = true := hrow row rfl
      rw [hrevoked, Bool.not_true, Bool.and_false, if_neg Bool.false_ne_true,
        next_verify_none]
      split
      · exact .barred nofun hst
      · exact .barred hrow hst
  | good hissued hrevoked hconsumed =>
      rename_i s
      cases hexpired : expired now ⟨s.type, s.payload, false,
          expiry s.issuedAt s.payload⟩ with
      | true =>
          rw [Bool.not_true, Bool.false_and, if_neg Bool.false_ne_true,
            next_verify_none, Bool.or_true, if_pos rfl]
          exact .elapsed hissued (of_decide_eq_true hexpired)
      | false =>
          cases once with
          | true =>
              apply Stands.barred
              · exact nofun
              · intro consumed hconsumed'
                have hnext : some { s with consumed := true } =
                    some consumed := by
                  rw [← hconsumed']
                  exact (if_pos rfl).symm
                rw [← Option.some.inj hnext]
                exact Or.inr rfl
          | false => exact .good hissued hrevoked hconsumed

theorem stands_verify (hle : last ≤ now) (h : j.Faithful last)
    (verified : Text) (type : TokenType) (once : Bool) :
    (j.add ⟨now, .verify verified type once⟩).Faithful now := by
  intro token
  have hold := (h token).mono hle
  unfold Journal.add
  rw [of_append]
  unfold perform
  dsimp only
  cases hfind : findToken j.tokens verified type with
  | none =>
      rw [exec_bind_of_ok (exec_verify_none hfind now once)]
      show Stands now (found j.tokens token)
        (Standing.next token _ ⟨_, .ok (.payload none)⟩)
      rw [next_verify_none]
      exact hold
  | some row =>
      have hrow : j.tokens.findUnique verified = some row :=
        (Option.filter_eq_some_iff.mp hfind).left
      rw [exec_bind_of_ok (exec_verify_some hfind now once)]
      by_cases htoken : verified = token
      · have hfound : found j.tokens token = some row.value := by
          rw [← htoken]
          unfold found
          rw [hrow]
          rfl
        have hafter : found (if once || expired now row.value then
            j.tokens.erase row.pk else j.tokens) token =
              if once || expired now row.value then none
              else some row.value := by
          split
          · rw [found_erase hrow, if_pos htoken.symm]
          · exact hfound
        rw [hfound] at hold
        show Stands now (found (if once || expired now row.value then
          j.tokens.erase row.pk else j.tokens) token) _
        rw [hafter, htoken]
        exact stands_found hold type once
      · have hsame : found (if once || expired now row.value then
            j.tokens.erase row.pk else j.tokens) token =
              found j.tokens token := by
          split
          · rw [found_erase hrow, if_neg fun heq => htoken heq.symm]
          · rfl
        show Stands now (found (if once || expired now row.value then
          j.tokens.erase row.pk else j.tokens) token) _
        rw [hsame, next_verify_of_ne htoken]
        exact hold

theorem faithful_add {c : Timed} (hle : last ≤ c.time)
    (h : j.Faithful last) : (j.add c).Faithful c.time := by
  rcases c with ⟨time, call⟩
  cases call with
  | issue payload type drawn => exact stands_issue hle h payload type drawn
  | verify token type once => exact stands_verify hle h token type once
  | revoke token type => exact stands_revoke hle h token type

theorem faithful_foldl {calls : List Timed} (h : j.Faithful last)
    (hsorted : (last :: calls.map Timed.time).Pairwise (· ≤ ·))
    (hlast : last ≤ now) (hnow : forall c, c ∈ calls -> c.time ≤ now) :
    (calls.foldl Journal.add j).Faithful now := by
  induction calls generalizing j last with
  | nil => exact fun token => (h token).mono hlast
  | cons c rest ih =>
      rcases List.pairwise_cons.mp hsorted with ⟨hfirst, hrest⟩
      have hle : last ≤ c.time := hfirst c.time List.mem_cons_self
      have hc : c.time ≤ now := hnow c List.mem_cons_self
      exact ih (faithful_add hle h) hrest hc
        fun d hd => hnow d (List.mem_cons_of_mem c hd)

theorem faithful_after {calls : List Timed}
    (hsorted : (calls.map Timed.time).Pairwise (· ≤ ·))
    (hnow : forall c, c ∈ calls -> c.time ≤ now) :
    (Journal.after calls).Faithful now := by
  have hempty : Journal.empty.Faithful 0 := fun _ => .barred nofun nofun
  have hzero : (0 :: calls.map Timed.time).Pairwise (· ≤ ·) :=
    List.pairwise_cons.mpr ⟨fun _ _ => Nat.zero_le _, hsorted⟩
  exact faithful_foldl hempty hzero (Nat.zero_le now) hnow

/-! ## What a lookup gives -/

theorem lt_of_unlimited {st : Standing} (h : st.unlimited now = true) :
    (expiry st.issuedAt st.payload).getD 0 < now := by
  rcases Bool.and_eq_true_iff.mp h with ⟨hpos, hexp⟩
  have hpos' : (0 : Int) < now := Int.ofNat_lt.mpr (of_decide_eq_true hpos)
  unfold expiry
  cases hseconds : st.payload.exp with
  | none => exact hpos'
  | some seconds =>
      rw [hseconds] at hexp
      have hzero : seconds = 0 :=
        eq_of_beq (Bool.and_eq_true_iff.mp hexp).left
      rw [hzero]
      exact hpos'

theorem inTime_iff {st : Standing} (hissued : st.issuedAt ≤ now) :
    st.inTime now = true <->
      ¬ (expiry st.issuedAt st.payload).getD 0 < now ∨
        st.unlimited now = true := by
  unfold Standing.inTime Standing.unlimited expiry
  cases hseconds : st.payload.exp with
  | none =>
      simp only [Option.filter_none, Option.map_none, Option.getD_none,
        Bool.and_true, decide_eq_true_eq, true_iff]
      omega
  | some seconds =>
      by_cases hzero : seconds = 0
      · rw [hzero]
        simp only [Option.filter_some, bne_self_eq_false, Bool.false_eq_true,
          if_false, Option.map_none, Option.getD_none, beq_self_eq_true,
          Bool.true_and, Bool.and_eq_true, decide_eq_true_eq]
        omega
      · have hne : (seconds != 0) = true := bne_iff_ne.mpr hzero
        have heq : (seconds == 0) = false := beq_false_of_ne hzero
        simp only [Option.filter_some, hne, if_true, Option.map_some,
          Option.getD_some, heq, Bool.false_and, Bool.and_false,
          decide_eq_true_eq, Bool.false_eq_true, or_false, Int.not_lt]

/-- What a lookup makes of the row of its token. -/
def looked (now : Nat) (row : Option AuthToken) (type : TokenType) :
    Option JwtPayload :=
  row.bind fun row =>
    if row.type == type && !expired now row && !row.revoked then
      some row.payload
    else none

theorem fst_exec_verify (s : AuthTokens) (type : TokenType) (once : Bool) :
    (exec (verify now token type once) s).1 =
      .ok (looked now (found s token) type) := by
  unfold found
  cases hrow : s.findUnique token with
  | none =>
      have hfind : findToken s token type = none := by
        unfold findToken
        rw [hrow]
        rfl
      rw [exec_verify_none hfind]
      rfl
  | some row =>
      show _ = Except.ok (if row.value.type == type && !expired now row.value &&
        !row.value.revoked then some row.value.payload else none)
      cases htype : row.value.type == type with
      | false =>
          have hfind : findToken s token type = none := by
            unfold findToken
            rw [hrow, Option.filter_some, htype, if_neg Bool.false_ne_true]
          rw [exec_verify_none hfind]
          rfl
      | true =>
          have hfind : findToken s token type = some row := by
            unfold findToken
            rw [hrow, Option.filter_some, htype, if_pos rfl]
          rw [exec_verify_some hfind, Bool.true_and]

theorem given_eq_expected_iff {s : Standing} (hissued : s.issuedAt ≤ now)
    (type : TokenType) :
    ((if s.good type && !decide ((expiry s.issuedAt s.payload).getD 0 < now)
        then some s.payload else none) =
      if s.good type && s.inTime now then some s.payload else none) <->
      ¬ (s.good type = true ∧ s.unlimited now = true) := by
  have hinTime := inTime_iff hissued
  cases hgood : s.good type with
  | false => simp
  | true =>
      by_cases hexpired : (expiry s.issuedAt s.payload).getD 0 < now
      · cases hunlimited : s.unlimited now with
        | true =>
            have hin : s.inTime now = true := hinTime.mpr (Or.inr hunlimited)
            simp [hexpired, hin]
        | false =>
            have hin : s.inTime now = false := by
              apply Bool.eq_false_iff.mpr
              intro hin
              rcases hinTime.mp hin with hnot | hyes
              · exact hnot hexpired
              · rw [hunlimited] at hyes
                cases hyes
            simp [hexpired, hin]
      · have hin : s.inTime now = true := hinTime.mpr (Or.inl hexpired)
        have hunlimited : s.unlimited now = false := by
          apply Bool.eq_false_iff.mpr
          intro hyes
          exact hexpired (lt_of_unlimited hyes)
        simp [hexpired, hin, hunlimited]

theorem looked_eq_expected_iff {row : Option AuthToken} {st : Option Standing}
    (h : Stands now row st) (type : TokenType) :
    (looked now row type = st.bind fun s =>
        if s.good type && s.inTime now then some s.payload else none) <->
      ¬ exists s, st = some s ∧ s.good type = true ∧
        s.unlimited now = true := by
  cases h with
  | barred hrow hst =>
      have hgood : forall s, st = some s -> s.good type = false := by
        intro s hs
        unfold Standing.good
        rcases hst s hs with hrevoked | hconsumed
        · rw [hrevoked, Bool.not_true, Bool.and_false, Bool.false_and]
        · rw [hconsumed, Bool.not_true, Bool.and_false]
      have hlooked : looked now row type = none := by
        cases row with
        | none => rfl
        | some r =>
            show (if _ then _ else _) = _
            rw [hrow r rfl, Bool.not_true, Bool.and_false,
              if_neg Bool.false_ne_true]
      constructor
      · intro _ hunlimited
        rcases hunlimited with ⟨s, hs, hsgood, _⟩
        rw [hgood s hs] at hsgood
        cases hsgood
      · intro _
        rw [hlooked]
        cases st with
        | none => rfl
        | some s =>
            show none = if _ then _ else _
            rw [hgood s rfl, Bool.false_and, if_neg Bool.false_ne_true]
  | good hissued hrevoked hconsumed =>
      rename_i s
      have hgood : s.good type = (s.type == type) := by
        unfold Standing.good
        rw [hrevoked, hconsumed, Bool.not_false, Bool.and_true, Bool.and_true]
      have hlooked : looked now (some ⟨s.type, s.payload, false,
          expiry s.issuedAt s.payload⟩) type =
            if s.good type &&
                !decide ((expiry s.issuedAt s.payload).getD 0 < now)
              then some s.payload else none := by
        rw [hgood]
        show (if _ && !false then _ else _) = _
        rw [Bool.not_false, Bool.and_true]
        rfl
      rw [hlooked]
      have hiff := given_eq_expected_iff hissued type
      simpa using hiff
  | elapsed hissued helapsed =>
      rename_i s
      have hlooked : looked now none type =
          if s.good type &&
              !decide ((expiry s.issuedAt s.payload).getD 0 < now)
            then some s.payload else none := by
        rw [decide_eq_true helapsed, Bool.not_true, Bool.and_false,
          if_neg Bool.false_ne_true]
        rfl
      rw [hlooked]
      have hiff := given_eq_expected_iff hissued type
      simpa using hiff

/-- After any calls at times that do not decrease, a lookup gives the payload
of a token that was issued with the type, is neither revoked nor consumed and
is in time, and nothing else, exactly when the token is not one without
expiry. -/
theorem verify_eq_expected_iff {calls : List Timed} {now : Nat}
    (hsorted : (calls.map Timed.time).Pairwise (· ≤ ·))
    (hnow : forall c, c ∈ calls -> c.time ≤ now) (token : Text)
    (type : TokenType) (once : Bool) :
    (exec (verify now token type once) (Journal.after calls).tokens).1 =
        .ok (expected (Journal.after calls).entries now token type) <->
      ¬ Unlimited (Journal.after calls).entries now token type := by
  have hstands := faithful_after hsorted hnow token
  have hiff := looked_eq_expected_iff hstands type
  rw [fst_exec_verify, Except.ok.injEq]
  unfold expected Unlimited
  cases hst : Standing.of (Journal.after calls).entries token with
  | none =>
      rw [hst] at hiff
      exact hiff
  | some st =>
      rw [hst] at hiff
      exact hiff

end Faithful

/-! ## A token that expires and one that does not -/

def mailPayload (exp : Option Int) : JwtPayload where
  jti := some "t".toList
  exp := exp
  claims := [("sub".toList, .str "a@b.c".toList)]

def mailIssued (exp : Option Int) : List Timed :=
  [⟨1000, .issue (mailPayload exp) .apiKey "x".toList⟩]

/-- A token without expiry is not found a second later, and a token for a day
is. -/
theorem unlimited_not_found :
    (exec (verify 2000 "t".toList .apiKey false)
        (Journal.after (mailIssued none)).tokens).1 = .ok none ∧
      expected (Journal.after (mailIssued none)).entries 2000 "t".toList
        .apiKey = some (mailPayload none) ∧
      (exec (verify 2000 "t".toList .apiKey false)
        (Journal.after (mailIssued (some 86400))).tokens).1 =
          .ok (some (mailPayload (some 86400))) :=
  ⟨rfl, rfl, rfl⟩

/-- The token for a day is found as it should be. -/
theorem verify_mailIssued :
    (exec (verify 2000 "t".toList .apiKey true)
        (Journal.after (mailIssued (some 86400))).tokens).1 =
      .ok (expected (Journal.after (mailIssued (some 86400))).entries 2000
        "t".toList .apiKey) := by
  have hsorted : ((mailIssued (some 86400)).map Timed.time).Pairwise (· ≤ ·) :=
    List.pairwise_singleton _ _
  have hnow : forall c, c ∈ mailIssued (some 86400) -> c.time ≤ 2000 := by
    intro c hc
    rw [List.mem_singleton.mp hc]
    decide
  apply (verify_eq_expected_iff hsorted hnow "t".toList .apiKey true).mpr
  intro hunlimited
  rcases hunlimited with ⟨st, hst, _, hunlimited⟩
  cases Option.some.inj hst
  cases hunlimited

end Users
end CallgentApi
