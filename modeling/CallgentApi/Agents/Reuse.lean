import CallgentApi.Agents.Llm

/-!
# Answers from the cache

A query that finds its prompt in the cache asks no model, but what it parses
then is the empty answer it started with and not the one it has found.
-/

namespace CallgentApi
namespace Agents

open Js Event Effect

section Reuse

variable {args omega : Type} {host : LlmHost args omega}
  {s next : LlmState args omega}

/-! ## What is made of an answer -/

theorem eq_answer_of_parse {o : Options} (hraw : o.parseSchema.filter
      Json.truthy = none) {answer : Option Text} {i : Nat} {ok : Bool}
    {v : Value} (h : o.parse host answer i = .ok (ok, v)) :
    v = answer.map .str := by
  have hparse : parseResultSchema host.reader o.parseSchema o.parseType
      answer = .ok (answer.map .str) := by
    unfold parseResultSchema
    rw [hraw]
    rfl
  unfold Options.parse at h
  rw [hparse] at h
  change o.check (answer.map .str) i = .ok (ok, v) at h
  unfold Options.check at h
  cases hvalidate : o.validate with
  | none =>
      rw [hvalidate] at h
      cases h
      rfl
  | some validator =>
      rw [hvalidate] at h
      have hprimitive : isPrimitive (answer.map .str) = true := by
        cases answer with
        | none => rfl
        | some t => rfl
      exact validator.primitive hprimitive h

theorem parse_empty {o : Options} {schema : Json}
    (hschema : o.parseSchema.filter Json.truthy = some schema) (i : Nat) :
    o.parse host (some []) i =
      .error (.plain "LLM result must not empty".toList) := by
  unfold Options.parse parseResultSchema
  rw [hschema]
  rfl

/-! ## What a query leaves alone -/

theorem keeps_promptOf {t : Type} {f : LlmState args omega -> t}
    (hf : forall state templates,
      f { state with templates := templates } = f state)
    (template : Text) (a : args) : Keeps f (promptOf host template a) := by
  unfold promptOf
  apply Keeps.bind
  · unfold templateOf
    apply Keeps.bind Keeps.get
    intro state
    split
    · exact Keeps.pure _
    · split
      · exact Keeps.throw _
      · split
        · exact Keeps.throw _
        · apply Keeps.bind (Keeps.modify fun state => hf state _)
          intro _
          exact Keeps.pure _
  · intro tpl
    split
    · exact Keeps.pure _
    · exact Keeps.throw _

theorem llmCache_read {result : Option Text} (h : truthy result = none)
    (name : Text) (model : Option Text) (prompt : Text) :
    exists found, exec (llmCache name model prompt result) s =
      (.ok found, s) := by
  unfold llmCache
  rw [h]
  split
  · exists none
  · exists s.llmCache.find? (isCached name model prompt)

theorem loadFirst_read (name prompt : Text) (models : List Text)
    (found : Option Text × Option Text) :
    exists loaded, exec (loadFirst name prompt found models) s =
      (.ok loaded, s) := by
  induction models generalizing found with
  | nil => exact ⟨found, rfl⟩
  | cons llmModel rest ih =>
      rcases llmCache_read truthy_none name (some llmModel) prompt with
        ⟨row, hread⟩
      unfold loadFirst
      rw [exec_bind_of_ok hread]
      dsimp only
      split
      · exact ⟨_, rfl⟩
      · exact ih _

theorem llmCacheLoad_read (name prompt : Text) :
    exists loaded, exec (llmCacheLoad host name prompt) s =
      (.ok loaded, s) := by
  unfold llmCacheLoad
  split
  · exact loadFirst_read name prompt _ _
  · exact ⟨_, rfl⟩

theorem loadEnabled_read (name prompt : Text) :
    exists loaded, exec (loadEnabled host name prompt) s = (.ok loaded, s) := by
  unfold loadEnabled
  split
  · exact llmCacheLoad_read name prompt
  · exact ⟨_, rfl⟩

theorem keeps_zoomOutside {t b : Type} {f : LlmState args omega -> t}
    (hf : forall state outside, f { state with outside := outside } = f state)
    (x : Effect omega Thrown b) : Keeps f (zoomOutside x) := by
  intro state
  exact hf state _

theorem keeps_completion {t : Type} {f : LlmState args omega -> t}
    (hf : forall state completions outside,
      f { state with completions := completions, outside := outside } =
        f state)
    (req : LLMRequest) (paidBy : Text) (ctx : CompletionContext) :
    Keeps f (completion host req paidBy ctx) := by
  unfold completion
  apply Keeps.bind
  · apply keeps_zoomOutside
    intro state outside
    exact hf state state.completions outside
  intro _
  apply Keeps.bind
  · apply Keeps.modify
    intro state
    exact hf state _ state.outside
  intro _
  apply Keeps.bind
  · apply keeps_zoomOutside
    intro state outside
    exact hf state state.completions outside
  intro data
  apply Keeps.bind
  · apply Keeps.modify
    intro state
    exact hf state state.completions _
  intro _
  exact Keeps.pure _

theorem keeps_written_completion (req : LLMRequest) (paidBy : Text)
    (ctx : CompletionContext) :
    Keeps LlmState.written (completion host req paidBy ctx) :=
  keeps_completion (fun _ _ _ => rfl) req paidBy ctx

/-! ## The completions of a query -/

def Completes (state next : LlmState args omega) : Prop :=
  state.completions.length ≤ next.completions.length

theorem Completes.trans (first second third : LlmState args omega)
    (h : Completes first second) (h' : Completes second third) :
    Completes first third := Nat.le_trans h h'

theorem completes_of_keeps {b : Type}
    {x : Effect (LlmState args omega) Thrown b}
    (h : Keeps LlmState.completions x) : Along Completes x := by
  have hrel : forall state next : LlmState args omega,
      next.completions = state.completions -> Completes state next := by
    intro state next heq
    unfold Completes
    rw [heq]
  exact Along.of_keeps hrel h

theorem completes_completion (req : LLMRequest) (paidBy : Text)
    (ctx : CompletionContext) :
    Along Completes (completion host req paidBy ctx) := by
  unfold completion
  apply Along.bind Completes.trans
  · exact completes_of_keeps (keeps_zoomOutside (fun _ _ => rfl) _)
  intro _
  apply Along.bind Completes.trans
  · apply Along.modify
    intro state
    unfold Completes
    rw [List.length_append]
    exact Nat.le_add_right _ _
  intro _
  apply completes_of_keeps
  apply Keeps.bind (keeps_zoomOutside (fun _ _ => rfl) _)
  intro data
  apply Keeps.bind
  · apply Keeps.modify
    intro _
    rfl
  intro _
  exact Keeps.pure _

theorem lt_of_completion {req : LLMRequest} {paidBy : Text}
    {ctx : CompletionContext} {resp : LLMResponse}
    (h : exec (completion host req paidBy ctx) s = (.ok resp, next)) :
    s.completions.length < next.completions.length := by
  unfold completion at h
  rcases exec_bind_eq_ok h with ⟨_, charged, hcharge, hrest⟩
  have hcharged : charged.completions = s.completions :=
    (keeps_zoomOutside (fun _ _ => rfl) _).of_ok hcharge
  rw [exec_bind_of_ok (exec_modify _ charged)] at hrest
  rcases exec_bind_eq_ok hrest with ⟨data, fetched, hfetch, hlast⟩
  have hfetched : fetched.completions = charged.completions ++ [req] :=
    (keeps_zoomOutside (fun _ _ => rfl) _).of_ok hfetch
  rw [exec_bind_of_ok (exec_modify _ fetched)] at hlast
  cases hlast
  show s.completions.length < fetched.completions.length
  rw [hfetched, hcharged, List.length_append]
  exact Nat.lt_succ_self _

/-! ## One try and the loop -/

variable {template prompt : Text} {o : Options} {cache : Option Text}

theorem queryOnce_hit (h : (truthy cache).isSome = true) (i : Nat)
    (vars : QueryLoop) :
    exec (queryOnce host template o prompt cache i vars) s =
      (.ok (vars, o.parse host vars.llmResult i), s) := by
  unfold queryOnce
  rw [if_pos h]
  rfl

theorem queryOnce_miss (h : ¬ (truthy cache).isSome = true) {i : Nat}
    {vars vars' : QueryLoop} {result : Except Thrown (Bool × Value)}
    (hexec : exec (queryOnce host template o prompt cache i vars) s =
      (.ok (vars', result), next)) :
    (exists e, result = .error e) ∨ result = .ok (false, none) ∨
      (s.completions.length < next.completions.length ∧
        result = o.parse host vars'.llmResult i) := by
  unfold queryOnce at hexec
  rw [if_neg h, exec_bind, exec_settle] at hexec
  dsimp only at hexec
  cases hcall : exec (completion host ⟨.prompt (promptExt prompt
      vars.errorMessage), o.asked host⟩ o.paidBy ⟨template, o.bizKey⟩) s with
  | mk called asked =>
      rw [hcall] at hexec
      cases called with
      | error e =>
          cases hexec
          exact Or.inl ⟨e, rfl⟩
      | ok resp =>
          apply Or.inr
          dsimp only at hexec
          split at hexec
          · cases hexec
            exact Or.inl rfl
          · cases hexec
            exact Or.inr ⟨lt_of_completion hcall, rfl⟩

theorem completes_queryOnce (i : Nat) (vars : QueryLoop) :
    Along Completes
      (queryOnce host template o prompt cache i vars) := by
  unfold queryOnce
  split
  · exact completes_of_keeps (Keeps.pure _)
  · apply Along.bind Completes.trans
      (completes_completion _ _ _).settle
    intro called
    split
    · exact completes_of_keeps (Keeps.pure _)
    · dsimp only
      split
      · exact completes_of_keeps (Keeps.pure _)
      · exact completes_of_keeps (Keeps.pure _)

theorem keeps_written_queryOnce (i : Nat) (vars : QueryLoop) :
    Keeps LlmState.written
      (queryOnce host template o prompt cache i vars) := by
  unfold queryOnce
  split
  · exact Keeps.pure _
  · apply Keeps.bind (keeps_written_completion _ _ _).settle
    intro called
    split
    · exact Keeps.pure _
    · dsimp only
      split
      · exact Keeps.pure _
      · exact Keeps.pure _

theorem keeps_written_queryLoop (n i : Nat) (vars : QueryLoop) :
    Keeps LlmState.written
      (queryLoop host template o prompt cache i n vars) := by
  induction n generalizing i vars with
  | zero => exact Keeps.pure _
  | succ n ih =>
      unfold queryLoop
      apply Keeps.bind (keeps_written_queryOnce _ _)
      intro once
      split
      · exact Keeps.pure _
      · exact Keeps.pure _
      · split
        · exact Keeps.throw _
        · exact ih _ _

theorem exists_try_of_queryLoop {n i : Nat} {vars vars' : QueryLoop}
    {v : Value} (h : exec (queryLoop host template o prompt cache i n vars) s =
      (.ok (vars', some v), next)) :
    exists before state k,
      exec (queryOnce host template o prompt cache k before) state =
        (.ok (vars', .ok (true, v)), next) ∧
      Completes s state ∧
      ((truthy cache).isSome = true -> before.llmResult = vars.llmResult) := by
  induction n generalizing i vars s with
  | zero => cases h
  | succ n ih =>
      unfold queryLoop at h
      rcases exec_bind_eq_ok h with ⟨⟨once, result⟩, middle, honce, hrest⟩
      cases result with
      | ok checked =>
          rcases checked with ⟨valid, ret⟩
          cases valid with
          | false => cases hrest
          | true =>
              cases hrest
              exists vars, s, i
              exact ⟨honce, Nat.le_refl _, fun _ => rfl⟩
      | error e =>
          dsimp only at hrest
          split at hrest
          · cases hrest
          · rcases ih hrest with ⟨before, state, k, htry, hle, hkeeps⟩
            have hmiddle : Completes s middle :=
              (completes_queryOnce i vars).of_ok honce
            exists before, state, k
            constructor
            · exact htry
            constructor
            · exact Nat.le_trans hmiddle hle
            · intro hhit
              have hsame : once = vars := by
                rw [queryOnce_hit hhit] at honce
                have hpair := Except.ok.inj (congrArg Prod.fst honce)
                exact (congrArg Prod.fst hpair).symm
              rw [hkeeps hhit, hsame]

/-- A value comes from the answer that the loop ends with; without the cache
it has been asked for. -/
theorem parse_of_queryLoop {n i : Nat} {vars vars' : QueryLoop} {v : Value}
    (h : exec (queryLoop host template o prompt cache i n vars) s =
      (.ok (vars', some v), next)) :
    (exists k, o.parse host vars'.llmResult k = .ok (true, v)) ∧
      ((truthy cache).isSome = true -> vars'.llmResult = vars.llmResult) ∧
      (¬ (truthy cache).isSome = true ->
        s.completions.length < next.completions.length) := by
  rcases exists_try_of_queryLoop h with
    ⟨before, state, k, htry, hle, hkeeps⟩
  by_cases hhit : (truthy cache).isSome = true
  · have hpass := htry
    rw [queryOnce_hit hhit] at hpass
    have hpair := Except.ok.inj (congrArg Prod.fst hpass)
    have hvars : before = vars' := congrArg Prod.fst hpair
    have hparse : o.parse host before.llmResult k = .ok (true, v) :=
      congrArg Prod.snd hpair
    rw [hvars] at hparse hkeeps
    exact ⟨⟨k, hparse⟩, hkeeps, fun hmiss => absurd hhit hmiss⟩
  · rcases queryOnce_miss hhit htry with ⟨e, herror⟩ | hnone | ⟨hlt, hparse⟩
    · cases herror
    · cases hnone
    · exact ⟨⟨k, hparse.symm⟩, fun h => absurd h hhit,
        fun _ => Nat.lt_of_le_of_lt hle hlt⟩

/-! ## A query after the answer has been cached -/

theorem keeps_completions_llmCache (name : Text) (model : Option Text)
    (prompt : Text) (result : Option Text) :
    Keeps LlmState.completions
      (llmCache name model prompt result : Effect (LlmState args omega) _ _) := by
  unfold llmCache
  split
  · exact Keeps.pure _
  apply Keeps.bind Keeps.get
  intro state
  dsimp only
  split
  · exact Keeps.pure _
  · split
    · apply Keeps.bind (Keeps.throw _)
      intro _
      apply Keeps.bind
      · apply Keeps.modify
        intro _
        rfl
      intro _
      exact Keeps.pure _
    · apply Keeps.bind
      · apply Keeps.modify
        intro _
        rfl
      intro _
      exact Keeps.pure _
  · exact Keeps.throw _
  · apply Keeps.bind Keeps.get
    intro state
    split
    · apply Keeps.bind (Keeps.throw _)
      intro _
      apply Keeps.bind
      · apply Keeps.modify
        intro _
        rfl
      intro _
      exact Keeps.pure _
    · apply Keeps.bind
      · apply Keeps.modify
        intro _
        rfl
      intro _
      exact Keeps.pure _

theorem exists_loop_of_query {a : args} {v : Value}
    (h : exec (query host template a o) s = (.ok v, next)) :
    exists prompt cache vars vars' ready looped,
      ready.written = s.written ∧ ready.completions = s.completions ∧
      vars.llmResult = some [] ∧
      exec (queryLoop host template o prompt cache 0 3 vars) ready =
        (.ok (vars', some v), looped) ∧
      (next = looped ∨ exists row,
        exec (llmCache template vars'.llmModel prompt vars'.llmResult) looped =
          (.ok row, next)) := by
  unfold query at h
  rcases exec_bind_eq_ok h with ⟨prompt, ready, hprompt, hload⟩
  have hwritten : ready.written = s.written :=
    (keeps_promptOf (fun _ _ => rfl) template a).of_ok hprompt
  have hcompletions : ready.completions = s.completions :=
    (keeps_promptOf (fun _ _ => rfl) template a).of_ok hprompt
  rcases exec_bind_eq_ok hload with ⟨⟨cache, model⟩, loaded, hfound, hloop⟩
  have hread : exists found, exec (loadEnabled host template prompt) ready =
      (.ok found, ready) := loadEnabled_read template prompt
  rcases hread with ⟨found, hread⟩
  rw [hread] at hfound
  have hloaded : loaded = ready := (congrArg Prod.snd hfound).symm
  rw [hloaded] at hloop
  dsimp only at hloop
  rcases exec_bind_eq_ok hloop with ⟨⟨vars', ret⟩, looped, hlooped, hlast⟩
  cases ret with
  | none => cases hlast
  | some ret =>
      dsimp only at hlast
      exists prompt, cache, queryStart host o model, vars', ready, looped
      split at hlast
      · rcases exec_bind_eq_ok hlast with ⟨row, stored, hstored, hreturn⟩
        cases hreturn
        exact ⟨hwritten, hcompletions, rfl, hlooped, Or.inr ⟨row, hstored⟩⟩
      · cases hlast
        exact ⟨hwritten, hcompletions, rfl, hlooped, Or.inl rfl⟩

theorem answer_of_written {a : args} {v : Value}
    (h : exec (query host template a o) s = (.ok v, next))
    (hcached : next.written ≠ s.written) :
    exists answer k, truthy answer ≠ none ∧
      o.parse host answer k = .ok (true, v) := by
  rcases exists_loop_of_query h with
    ⟨prompt, cache, vars, vars', ready, looped, hready, _, _, hloop, hwrite⟩
  have hlooped : looped.written = s.written := by
    rw [← hready]
    exact (keeps_written_queryLoop _ _ _).of_ok hloop
  rcases hwrite with hsame | ⟨row, hrow⟩
  · rw [hsame] at hcached
    exact absurd hlooped hcached
  · rcases (parse_of_queryLoop hloop).left with ⟨k, hparse⟩
    exists vars'.llmResult, k
    constructor
    · intro hempty
      have hread : exists found,
          exec (llmCache template vars'.llmModel prompt vars'.llmResult)
            looped = (.ok found, looped) := llmCache_read hempty _ _ _
      rcases hread with ⟨found, hread⟩
      rw [hread] at hrow
      have hnext : looped = next := congrArg Prod.snd hrow
      rw [← hnext] at hcached
      exact hcached hlooped
    · exact hparse

theorem empty_of_uncalled {a : args} {v : Value}
    (h : exec (query host template a o) s = (.ok v, next))
    (huncalled : next.completions = s.completions) :
    exists k, o.parse host (some []) k = .ok (true, v) := by
  rcases exists_loop_of_query h with
    ⟨prompt, cache, vars, vars', ready, looped, _, hready, hstart, hloop,
      hwrite⟩
  have hnext : next.completions = looped.completions := by
    rcases hwrite with hsame | ⟨row, hrow⟩
    · rw [hsame]
    · exact (keeps_completions_llmCache _ _ _ _).of_ok hrow
  rcases parse_of_queryLoop hloop with ⟨⟨k, hparse⟩, hhit, hmiss⟩
  by_cases hcache : (truthy cache).isSome = true
  · exists k
    rw [hhit hcache, hstart] at hparse
    exact hparse
  · have hlt := hmiss hcache
    rw [hready, ← huncalled, hnext] at hlt
    exact absurd hlt (Nat.lt_irrefl _)

theorem parse_ne_parse_empty {answer : Option Text} {k k' : Nat} {v : Value}
    (hanswer : truthy answer ≠ none)
    (h : o.parse host answer k = .ok (true, v)) :
    o.parse host (some []) k' ≠ .ok (true, v) := by
  intro hempty
  cases hschema : o.parseSchema.filter Json.truthy with
  | none =>
      have hv := eq_answer_of_parse hschema h
      have hnil := eq_answer_of_parse hschema hempty
      rw [hv] at hnil
      cases answer with
      | none => cases hnil
      | some text =>
          cases hnil
          exact hanswer rfl
  | some schema =>
      rw [parse_empty hschema] at hempty
      cases hempty

/-- A query with the arguments of one before it, for any models and payer,
gives the value `v` and asks no model; the cache has a row for the template
from one of the models that it asks for. -/
def Reuses (host : LlmHost args omega) (template : Text) (a : args)
    (o : Options) (v : Value) (s : LlmState args omega) : Prop :=
  exists last row,
    exec (query host template a o) s = (.ok v, last) ∧
    last.completions = s.completions ∧
    row ∈ s.llmCache ∧ row.name = template ∧
    row.model ∈ (o.asked host).list

/-- What a query has cached is never reused: whatever happens in between, no
later query with the same schema and validator returns the value without
asking a model again. -/
theorem not_reuses_of_written {a : args} {v : Value} (models : Option Models)
    (bizKey paidBy : Text) (later : LlmState args omega)
    (hfirst : exec (query host template a o) s = (.ok v, next))
    (hcached : next.written ≠ s.written) :
    ¬ Reuses host template a
      { o with models := models, bizKey := bizKey, paidBy := paidBy } v
      later := by
  intro hreuses
  rcases hreuses with ⟨last, _, hlater, huncalled, _⟩
  rcases answer_of_written hfirst hcached with ⟨answer, k, hanswer, hparse⟩
  rcases empty_of_uncalled hlater huncalled with ⟨k', hempty⟩
  exact parse_ne_parse_empty hanswer hparse hempty

end Reuse

/-! ## The summary of an entry, twice -/

def summaryText : Text := "\x7b\"totally\":true\x7d".toList

def summaryValue : Json := .obj [("totally".toList, .bool true)]

def summaryReader : JsonReader where
  jsonrepair := fun text => .ok text
  parse := fun text =>
    if text = summaryText then .ok summaryValue
    else .error (.plain "Unexpected token".toList)

def summaryHost : LlmHost Unit Unit where
  llmModels := .many ["gemini".toList]
  cacheEnable := true
  reader := summaryReader
  dot := fun text => .ok fun _ => .ok text
  charge := fun _ => return ()
  fetch := fun _ =>
    return ⟨some "gemini".toList, some [⟨some summaryText, none⟩], none, none⟩
  billed := fun _ _ _ outside => outside

def summaryState : LlmState Unit Unit where
  templates := fun _ => none
  llmTemplate := fun _ => some "Summarize the entry".toList
  llmCache := []
  nextPk := 1
  written := []
  completions := []
  chats := []
  outside := ()

def summaryOptions : Options where
  models := none
  bizKey := "entry".toList
  paidBy := "user".toList
  parseType := .json
  parseSchema := some (.obj [("summary".toList, .str []),
    ("instruction".toList, .str []), ("totally".toList, .bool true)])
  validate := none

def summaryQuery : Effect (LlmState Unit Unit) Thrown Value :=
  query summaryHost "summarizeEntry".toList () summaryOptions

def summaryCached : LlmState Unit Unit :=
  (exec summaryQuery summaryState).2

def summaryRow : CacheRow where
  pk := 1
  name := "summarizeEntry".toList
  model := "gemini".toList
  prompt := "Summarize the entry".toList
  result := summaryText

/-- The value of the first query is not given again: with the row there, the
same query fails. -/
theorem summary_not_reused :
    exec summaryQuery summaryState = (.ok (some summaryValue), summaryCached) ∧
      summaryCached.written = [summaryRow] ∧
      summaryCached.llmCache = [summaryRow] ∧
      (exec summaryQuery summaryCached).1 =
        .error (.plain ("Failed validating generated content, gemini," ++
          "summarizeEntry,LLM result must not empty").toList) ∧
      ¬ Reuses summaryHost "summarizeEntry".toList () summaryOptions
        (some summaryValue) summaryCached := by
  have hsecond : (exec summaryQuery summaryCached).1 =
      .error (.plain ("Failed validating generated content, gemini," ++
        "summarizeEntry,LLM result must not empty").toList) := rfl
  refine ⟨rfl, rfl, rfl, hsecond, ?_⟩
  intro hreuses
  rcases hreuses with ⟨last, _, hexec, _⟩
  have hfirst : (exec summaryQuery summaryCached).1 = .ok (some summaryValue) :=
    congrArg Prod.fst hexec
  rw [hsecond] at hfirst
  cases hfirst

/-- Nor is it given to a query that another user pays. -/
theorem summary_not_reused_later :
    ¬ Reuses summaryHost "summarizeEntry".toList ()
      { summaryOptions with
          models := some (.one "gemini".toList)
          bizKey := "entry".toList
          paidBy := "another".toList } (some summaryValue) summaryCached := by
  have hfirst : exec summaryQuery summaryState =
      (.ok (some summaryValue), summaryCached) := rfl
  have hcached : summaryCached.written ≠ summaryState.written := by
    have hwritten : summaryCached.written = [summaryRow] := rfl
    rw [hwritten]
    exact List.cons_ne_nil _ _
  exact not_reuses_of_written _ _ _ summaryCached hfirst hcached

end Agents
end CallgentApi
