import CallgentApi.Config.Derived
import CallgentApi.Lib.Separator

/-!
# The keys of realms

The key of a realm joins texts of its scheme with colons.  A name or a realm
with a colon in it can be read as more than one text, and the realms of two
schemes with such texts are under one key.
-/

namespace CallgentApi
namespace Config

open Js Event Realms Cached

def keyTexts (authType : Text) (scheme : RealmSchemeVO)
    (realm : Option Text) : List Text :=
  if authType = "apiKey".toList then
    [scheme.in_.getD [], scheme.name.getD [], interpolate scheme.provider,
      realm.getD []]
  else [scheme.scheme.getD [], interpolate scheme.provider, realm.getD []]

def Upsert.keyTexts (u : Upsert) : List Text :=
  Config.keyTexts u.realm.authType u.realm.scheme u.realm.realm

/-- A colon in a text of one key stands for the end of that text in the other
one. -/
def Shifted (u v : Upsert) : Prop :=
  Separator.Shifts ':' u.keyTexts v.keyTexts ∨
    Separator.Shifts ':' v.keyTexts u.keyTexts

/-- The realm that the first upsert leaves is still there, with its scheme and
its secret, after an upsert of other texts. -/
def KeepsSecret (platform : Platform) (c : Tables) (entryId : Text)
    (scheme : RealmSchemeVO) (form : RealmForm) (servers : List Text)
    (u v : Upsert) : Prop :=
  u.keyTexts ≠ v.keyTexts ->
    forall c' row,
      upsertRealm platform c entryId scheme form servers = .ok c' ->
        row ∈ c.realms.rows -> row.key = u.key ->
          c'.realms.findPk row.pk = some row

/-! ## What a key is made of -/

theorem getRealmKey_eq {authType : Text} {processor : SchemeProcessor}
    (h : getSchemeProcessor authType = .ok processor) (scheme : RealmSchemeVO)
    (realm : Option Text) :
    processor.getRealmKey scheme realm =
      authType ++ ':' :: [':'].intercalate (keyTexts authType scheme realm) := by
  unfold getSchemeProcessor at h
  unfold keyTexts
  split at h
  · rename_i hkey
    cases h
    rw [if_pos hkey, hkey]
    simp [SchemeProcessor.apiKey]
  · rename_i hkey
    split at h
    · rename_i hhttp
      cases h
      rw [if_neg hkey, hhttp]
      simp [SchemeProcessor.http]
    · cases h

theorem length_keyTexts (authType : Text) (scheme other : RealmSchemeVO)
    (realm realm' : Option Text) :
    (keyTexts authType scheme realm).length =
      (keyTexts authType other realm').length := by
  unfold keyTexts
  split
  · rfl
  · rfl

theorem realmKey_eq_iff {u v : Upsert} (hu : Ruled u.realmKey u.realm)
    (hv : Ruled v.realmKey v.realm)
    (htype : u.realm.authType = v.realm.authType) :
    u.realmKey = v.realmKey <->
      u.keyTexts = v.keyTexts ∨ Shifted u v := by
  rcases hu with ⟨processor, hprocessor, hkey, _⟩
  rcases hv with ⟨other, hother, hkey', _⟩
  have hlength : u.keyTexts.length = v.keyTexts.length := by
    unfold Upsert.keyTexts
    rw [htype]
    exact length_keyTexts _ _ _ _ _
  have hsame : u.realmKey = v.realmKey <->
      [':'].intercalate u.keyTexts = [':'].intercalate v.keyTexts := by
    rw [hkey, hkey', getRealmKey_eq hprocessor, getRealmKey_eq hother, htype,
      List.append_cancel_left_eq, List.cons_eq_cons, and_iff_right rfl,
      ← htype]
    unfold Upsert.keyTexts
    rw [htype]
  rw [hsame]
  exact Separator.intercalate_eq_iff hlength

theorem ne_of_shifted {u v : Upsert} (h : Shifted u v) :
    u.keyTexts.dropLast ≠ v.keyTexts.dropLast := by
  rcases h with hfirst | hsecond
  · exact Separator.ne_of_shifts hfirst
  · exact Ne.symm (Separator.ne_of_shifts hsecond)

/-! ## What an upsert leaves of a realm -/

section Onto

variable {u : Upsert} {t : Table (Text × Text) Realm} {row : RealmRow}

theorem findUnique_onto_of_ne {key : Text × Text} (hne : key ≠ u.key) :
    (u.onto t).findUnique key = t.findUnique key := by
  unfold Upsert.onto
  split
  · rename_i found hfound
    rw [Table.findUnique_move_self hfound]
    cases hrow : t.findUnique key with
    | none => rfl
    | some row =>
        have hpk : row.pk ≠ found.pk := by
          intro hpk
          have hsame := Table.eq_of_pk (Table.mem_of_findUnique hrow)
            (Table.mem_of_findUnique hfound) hpk
          apply hne
          rw [← Table.key_of_findUnique hrow, hsame,
            Table.key_of_findUnique hfound]
        exact congrArg some (if_neg hpk)
  · exact Table.findUnique_insert_of_ne u.realm _ hne

theorem findUnique_onto_self (hrow : t.findUnique u.key = some row) :
    (u.onto t).findUnique u.key = some ⟨row.pk, u.key, u.over row.value⟩ := by
  unfold Upsert.onto
  split
  · rename_i found hfound
    have hsame := Option.some.inj (hrow.symm.trans hfound)
    rw [Table.findUnique_move_self hfound, hfound, hsame]
    exact congrArg some (if_pos rfl)
  · rename_i hnone
    rw [hrow] at hnone
    cases hnone

theorem exists_row_of_onto (u : Upsert) (t : Table (Text × Text) Realm) :
    exists row, (u.onto t).findUnique u.key = some row ∧
      row.value.authType = u.realm.authType ∧
      row.value.scheme = u.realm.scheme := by
  cases hrow : t.findUnique u.key with
  | some row => exact ⟨_, findUnique_onto_self hrow, rfl, rfl⟩
  | none =>
      refine ⟨⟨t.nextPk, u.key, u.realm⟩, ?_, rfl, rfl⟩
      unfold Upsert.onto
      split
      · rename_i found hfound
        rw [hrow] at hfound
        cases hfound
      · exact Table.findUnique_insert_self u.realm _

end Onto

/-! ## Two upserts -/

section Upserts

variable {platform : Platform} {c c1 : Tables} {entryId otherId : Text}
  {entry other : EntryRow} {scheme scheme' : RealmSchemeVO}
  {form form' : RealmForm} {servers servers' : List Text} {u v : Upsert}

theorem authType_of_constructUpsert {entry : Entry}
    (h : constructUpsert platform entry scheme form servers = .ok u) :
    u.realm.authType = scheme.type := by
  rcases Fallible.exists_of_bind_ok h with ⟨processor, _, h1⟩
  rcases Fallible.exists_of_bind_ok h1 with ⟨named, hnamed, h2⟩
  rcases Fallible.exists_of_bind_ok hnamed with ⟨provider, _, h3⟩
  cases h3
  cases h2
  rfl

theorem findPk_onto_of_ne {t : Table (Text × Text) Realm} {row : RealmRow}
    (hrow : row ∈ t.rows) (hne : row.key ≠ v.key) :
    (v.onto t).findPk row.pk = some row := by
  apply Table.findPk_of_findUnique (k := row.key)
  rw [findUnique_onto_of_ne hne]
  exact Table.findUnique_of_mem hrow

theorem overwrites_of_shifted {t : Table (Text × Text) Realm}
    (hkey : u.key = v.key) (htype : u.realm.authType = v.realm.authType)
    (hshifted : Shifted u v) :
    exists row, row ∈ (u.onto t).rows ∧ row.key = u.key ∧
      (v.onto (u.onto t)).findPk row.pk ≠ some row := by
  rcases exists_row_of_onto u t with ⟨row, hrow, _, hscheme⟩
  refine ⟨row, Table.mem_of_findUnique hrow, Table.key_of_findUnique hrow, ?_⟩
  intro hkept
  rw [hkey] at hrow
  have hover := Table.findPk_of_findUnique (findUnique_onto_self hrow)
  have hsame := Option.some.inj (hkept.symm.trans hover)
  have hschemes : u.realm.scheme = v.realm.scheme := by
    rw [← hscheme, hsame]
    rfl
  apply ne_of_shifted hshifted
  unfold Upsert.keyTexts keyTexts
  rw [htype, hschemes]
  split
  · rfl
  · rfl

/-- The keys of two schemes tell them apart, and their realms keep apart,
exactly when no text of one goes on past a colon where the other one's ends. -/
theorem keysApart_iff (hplatform : platform.FindsByKey)
    (hentry : c.entries.findUnique entryId = some entry)
    (hother : c.entries.findUnique otherId = some other)
    (hu : constructUpsert platform entry.value scheme form servers = .ok u)
    (hv : constructUpsert platform other.value scheme' form' servers' = .ok v)
    (htype : scheme.type = scheme'.type)
    (hfirst : upsertRealm platform c entryId scheme form servers = .ok c1) :
    ((u.realmKey = v.realmKey <-> u.keyTexts = v.keyTexts) <->
        ¬ Shifted u v) ∧
      (KeepsSecret platform c1 otherId scheme' form' servers' u v <->
        ¬ (u.callgentId = v.callgentId ∧ Shifted u v)) := by
  have htypes : u.realm.authType = v.realm.authType := by
    rw [authType_of_constructUpsert hu, authType_of_constructUpsert hv, htype]
  have hkeys := realmKey_eq_iff (ruled_of_constructUpsert hu).left
    (ruled_of_constructUpsert hv).left htypes
  have hdifferent : Shifted u v -> u.keyTexts ≠ v.keyTexts := by
    intro hshifted hsame
    exact ne_of_shifted hshifted (congrArg List.dropLast hsame)
  rw [upsertRealm_of_constructed hplatform hentry hu] at hfirst
  cases hfirst
  have hsecond : upsertRealm platform { c with realms := u.onto c.realms }
      otherId scheme' form' servers' =
        .ok { c with realms := v.onto (u.onto c.realms) } :=
    upsertRealm_of_constructed hplatform hother hv
  constructor
  · constructor
    · intro h hshifted
      exact hdifferent hshifted (h.mp (hkeys.mpr (Or.inr hshifted)))
    · intro hnot
      rw [hkeys]
      exact or_iff_left hnot
  · constructor
    · intro hkeeps hboth
      rcases hboth with ⟨hcallgent, hshifted⟩
      have hkey : u.key = v.key :=
        Prod.ext hcallgent (hkeys.mpr (Or.inr hshifted))
      rcases overwrites_of_shifted hkey htypes hshifted with
        ⟨row, hrow, hrowKey, hlost⟩
      exact hlost (hkeeps (hdifferent hshifted) _ row hsecond hrow hrowKey)
    · intro hnot hne c' row hc' hrow hrowKey
      rw [hsecond] at hc'
      cases hc'
      apply findPk_onto_of_ne hrow
      rw [hrowKey]
      intro hkey
      rcases hkeys.mp (congrArg Prod.snd hkey) with hsame | hshifted
      · exact hne hsame
      · exact hnot ⟨congrArg Prod.fst hkey, hshifted⟩

end Upserts

/-! ## A name that ends with a host -/

def queryScheme (name : Text) : RealmSchemeVO :=
  { keyScheme with in_ := some "query".toList, name := some name }

def queryKey (name realm : Text) (secret : Value) : Upsert where
  callgentId := "shop".toList
  realmKey := "apiKey:query:".toList ++ name ++ ":shop.example:".toList ++ realm
  realm := {
    authType := "apiKey".toList
    realm := some realm
    scheme := queryScheme name
    secret := secret
    perUser := false
    enabled := SchemeProcessor.checkEnabled (queryScheme name) secret }

theorem keysApart_ofNames :
    KeepsSecret shopHosts
      { oneShop with realms :=
        (queryKey "a".toList "eu".toList none).onto .empty }
      "e1".toList (queryScheme "b".toList) ⟨some "eu".toList, none⟩ []
      (queryKey "a".toList "eu".toList none)
      (queryKey "b".toList "eu".toList none) := by
  have hnot : ¬ Shifted (queryKey "a".toList "eu".toList none)
      (queryKey "b".toList "eu".toList none) := by
    intro h
    have hkeys := realmKey_eq_iff (u := queryKey "a".toList "eu".toList none)
      (v := queryKey "b".toList "eu".toList none)
      ⟨.apiKey, rfl, rfl, rfl⟩ ⟨.apiKey, rfl, rfl, rfl⟩ rfl
    exact absurd (hkeys.mpr (Or.inr h)) (by decide)
  have hentry : oneShop.entries.findUnique "e1".toList =
      some ⟨1, "e1".toList, oneShopEntry⟩ :=
    rfl
  have hu : constructUpsert shopHosts oneShopEntry (queryScheme "a".toList)
      ⟨some "eu".toList, none⟩ [] =
        .ok (queryKey "a".toList "eu".toList none) :=
    rfl
  have hv : constructUpsert shopHosts oneShopEntry (queryScheme "b".toList)
      ⟨some "eu".toList, none⟩ [] =
        .ok (queryKey "b".toList "eu".toList none) :=
    rfl
  have hfirst : upsertRealm shopHosts oneShop "e1".toList
      (queryScheme "a".toList) ⟨some "eu".toList, none⟩ [] =
        .ok { oneShop with realms :=
          (queryKey "a".toList "eu".toList none).onto .empty } :=
    upsertRealm_of_constructed findsByKey_shopHosts hentry hu
  exact (keysApart_iff findsByKey_shopHosts hentry hentry hu hv rfl
    hfirst).right.mpr (fun h => hnot h.right)

/-- The token of a realm "shop.example:eu", and the one whose name ends with
the host, have one key; the second upsert writes over the secret. -/
theorem oneKey_ofTokens :
    (queryKey "token".toList "shop.example:eu".toList
        (some (.str "first".toList))).realmKey =
      (queryKey "token:shop.example".toList "eu".toList
        (some (.str "second".toList))).realmKey ∧
    (queryKey "token".toList "shop.example:eu".toList
        (some (.str "first".toList))).keyTexts ≠
      (queryKey "token:shop.example".toList "eu".toList
        (some (.str "second".toList))).keyTexts ∧
    exists c1 c2,
      upsertRealm shopHosts oneShop "e1".toList (queryScheme "token".toList)
        ⟨some "shop.example:eu".toList, some (.str "first".toList)⟩ [] =
          .ok c1 ∧
      upsertRealm shopHosts c1 "e1".toList
        (queryScheme "token:shop.example".toList)
        ⟨some "eu".toList, some (.str "second".toList)⟩ [] = .ok c2 ∧
      c1.realms.rows.map (fun row => (row.pk, row.value.secret)) =
        [(1, some (.str "first".toList))] ∧
      c2.realms.rows.map (fun row => (row.pk, row.value.secret)) =
        [(1, some (.str "second".toList))] := by
  refine ⟨rfl, by decide, _, _, rfl, rfl, rfl, rfl⟩

end Config
end CallgentApi
