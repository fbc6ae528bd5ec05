import CallgentApi.Agents.ArgHints
import CallgentApi.Web.Packages

/-!
# Generated sites

The code of a component says which stores and which other components it
imports, by the names that the model has been told.  Whatever the answers are,
a run that ends has written all of it, but for files named `__proto__`.
-/

namespace CallgentApi
namespace Web

open Js Event Config Agents Effect

/-! ## The checks of answers -/

/-- `p.lastIndexOf('@') > 0`. -/
def isVersioned (p : Text) : Bool :=
  p.tail.contains '@'

def checkPackage (p : Text) : Except Thrown Bool :=
  if isVersioned p then .ok true
  else
    .error (.plain
      ("package name should be like `name@version`: ".toList ++ p))

/-- `spec.importedComponents`, or none. -/
def importedComponents (spec : Value) : Except Thrown (List Json) := do
  let imported ← read spec "importedComponents"
  if !isTruthy imported then return []
  elementsOf imported "every"

def checkImport (names : List Json) (c : Json) : Except Thrown Bool :=
  if names.any fun name => Json.sameValue (some name) (some c) then .ok true
  else
    .error (.plain ("in $.spec.importedComponents: '".toList ++
      displayText (some c) ++
        "' isn't a self-defined components, must not listed here!".toList))

/-- `validate` of `AgentsService.genVue3Component`, with the names of the
components that the model has been told of. -/
def genVue3Component (names : List Json) (gen : ComponentAnswer) :
    Except Thrown Bool := do
  if !(← gen.packages.allM checkPackage) then return false
  (← importedComponents gen.spec).allM (checkImport names)

/-! ## What is asked for -/

/-- The component that code is asked for, and those that the model is told
of. -/
structure ComponentPrompt where
  name : Text
  component : Component
  related : List (Text × Component)

def Prompt.asComponent : Prompt -> Option ComponentPrompt
  | .component name comp _ related _ _ _ _ => some ⟨name, comp, related⟩
  | _ => none

def WebWorld.asked (world : WebWorld) : List ComponentPrompt :=
  world.prompts.filterMap Prompt.asComponent

/-- `{ name: compName, file, ...comp }.name`. -/
def Component.shownName (compName : Text) (comp : Component) : Json :=
  (comp.plan.others.lookup "name".toList).getD (.str compName)

/-- The components by the names that the model is told. -/
def ComponentPrompt.told (prompt : ComponentPrompt) :
    List (Json × Component) :=
  (prompt.component.shownName prompt.name, prompt.component) ::
    prompt.related.map fun entry => (.str entry.1, entry.2)

/-- Something has been written under the path; under `__proto__` nothing ever
is. -/
def Written (files : List (Text × Text)) (path : Text) : Prop :=
  path ≠ protoName -> exists code, files.lookup path = some code

/-- What the code of a component imports is there, and so is the code
itself. -/
structure Resolved (files : List (Text × Text)) (prompt : ComponentPrompt)
    (answer : ComponentAnswer) : Prop where
  own : Written files prompt.component.plan.file
  stores : forall store, store ∈ answer.importedStores ->
    Written files store.file
  components :
    genVue3Component (prompt.told.map Prod.fst) answer = .ok true ->
    exists imported, importedComponents answer.spec = .ok imported ∧
      forall c, c ∈ imported -> exists entry, entry ∈ prompt.told ∧
        Json.sameValue (some entry.1) (some c) = true ∧
        Written files entry.2.plan.file

def Prompt.Shown (files : List (Text × Text)) : Prompt -> Prop
  | .view page _ shown _ =>
      Written files page.file ∧
        forall entry, entry ∈ shown -> Written files entry.2.plan.file
  | _ => True

structure Closed (run : WebRun) (prompts : List Prompt)
    (files : List (Text × Text)) : Prop where
  components : forall entry,
    entry ∈ (prompts.filterMap Prompt.asComponent).zipIdx ->
      exists answer, run.components entry.2 = .ok answer ∧
        Resolved files entry.1 answer
  views : forall prompt, prompt ∈ prompts -> prompt.Shown files
  proto : files.lookup protoName = none

/-! ## Writing -/

section Writing

variable {files : List (Text × Text)} {path : Text}

theorem written_assignEntry_self (files : List (Text × Text))
    (path code : Text) : Written (assignEntry files path code) path := by
  intro hproto
  rw [assignEntry_of_ne hproto]
  exact ⟨code, lookup_setEntry_self files path code⟩

theorem Written.assignEntry (h : Written files path) (other code : Text) :
    Written (assignEntry files other code) path := by
  by_cases hsame : path = other
  · rw [hsame]
    exact written_assignEntry_self files other code
  · intro hproto
    rcases h hproto with ⟨old, hold⟩
    exact ⟨old, by rw [lookup_assignEntry_of_ne hsame, hold]⟩

/-- Everything that was written is still written, and `__proto__` is not. -/
structure Keeping (files files' : List (Text × Text)) : Prop where
  written : forall path, Written files path -> Written files' path
  proto : files.lookup protoName = none -> files'.lookup protoName = none

theorem Keeping.refl (files : List (Text × Text)) : Keeping files files where
  written := fun _ h => h
  proto := fun h => h

theorem Keeping.trans {files' files'' : List (Text × Text)}
    (h : Keeping files files') (h' : Keeping files' files'') :
    Keeping files files'' where
  written := fun path hpath => h'.written path (h.written path hpath)
  proto := fun hproto => h'.proto (h.proto hproto)

theorem keeping_assignEntry (files : List (Text × Text)) (path code : Text) :
    Keeping files (assignEntry files path code) where
  written := fun _ h => h.assignEntry path code
  proto := fun h => lookup_protoName_assignEntry h path code

def Stocked (stores : List Store) (file : Text) : Prop :=
  exists s, s ∈ stores ∧ s.file = file

variable {mergeState : Container -> List (Text × Node) ->
  Except Thrown Container} {comp : Component}

theorem stocked_importStore {stores next : List Store} {store : ImportedStore}
    (h : importStore mergeState comp stores store = .ok next) (file : Text) :
    Stocked next file <-> Stocked stores file ∨ file = store.file := by
  induction stores generalizing next with
  | nil =>
      cases h
      simp [Stocked, eq_comm]
  | cons s rest ih =>
      unfold importStore at h
      split at h
      · rename_i hsame
        have hnext : exists merged, next = merged :: rest ∧
            merged.file = s.file := by
          dsimp only at h
          split at h
          · rcases Fallible.exists_of_bind_ok h with ⟨state, _, h1⟩
            cases h1
            exact ⟨_, rfl, rfl⟩
          · rcases Fallible.exists_of_bind_ok h with ⟨state, _, h1⟩
            cases h1
            exact ⟨_, rfl, rfl⟩
        rcases hnext with ⟨merged, hnext, hfile⟩
        rw [hnext]
        simp only [Stocked, List.mem_cons, exists_eq_or_imp, hfile]
        constructor
        · exact Or.inl
        · intro hboth
          rcases hboth with hold | hnew
          · exact hold
          · exact Or.inl (hsame.trans hnew.symm)
      · rcases Fallible.exists_of_bind_ok h with ⟨others, hothers, h1⟩
        cases h1
        have hrest := ih hothers
        simp only [Stocked, List.mem_cons, exists_eq_or_imp] at hrest ⊢
        rw [hrest, or_assoc]

theorem stocked_importStores {imported : List ImportedStore}
    {stores next : List Store}
    (h : imported.foldlM (importStore mergeState comp) stores = .ok next)
    (file : Text) :
    Stocked next file <->
      Stocked stores file ∨
        exists store, store ∈ imported ∧ file = store.file := by
  induction imported generalizing stores with
  | nil =>
      cases h
      simp
  | cons first rest ih =>
      rw [List.foldlM_cons] at h
      rcases Fallible.exists_of_bind_ok h with ⟨middle, hfirst, hrest⟩
      rw [ih hrest, stocked_importStore hfirst]
      simp only [List.mem_cons, exists_eq_or_imp, or_assoc]

end Writing

/-! ## Plans -/

section Loops

variable {mergeState : Container -> List (Text × Node) ->
  Except Thrown Container} {run : WebRun} {views : List View}

def Prompt.isImporting : Prompt -> Bool
  | .component .. => true
  | .view .. => true
  | _ => false

def WebWorld.importing (world : WebWorld) : List Prompt :=
  world.prompts.filter Prompt.isImporting

theorem importing_append (world : WebWorld) (prompt : Prompt) :
    WebWorld.importing { world with prompts := world.prompts ++ [prompt] } =
      world.importing ++ [prompt].filter Prompt.isImporting :=
  List.filter_append world.prompts [prompt]

theorem keepsImporting_ofResult {a : Type} (x : Except Thrown a) :
    Keeps WebWorld.importing (ofResult x : WebAction a) :=
  fun _ => rfl

theorem keepsImporting_askAgent {a : Type}
    {prompt : WebpageService -> Prompt} {answer : Except Thrown a}
    (h : forall service, (prompt service).isImporting = false) :
    Keeps WebWorld.importing (askAgent prompt answer) := by
  intro world
  rw [exec_askAgent]
  show WebWorld.importing { world with
    prompts := world.prompts ++ [prompt world.service] } = _
  rw [importing_append]
  simp [h]

theorem keepsImporting_planViews (endpoints : List (WebEndpoint × List Value))
    (list : List (View × Nat)) (components : List (Text × Component)) :
    Keeps WebWorld.importing
      (planViews run views endpoints list components) := by
  induction list generalizing components with
  | nil => exact Keeps.pure components
  | cons entry rest ih =>
      unfold planViews
      apply (keepsImporting_askAgent fun _ => rfl).bind
      intro cps
      apply (keepsImporting_ofResult _).bind
      exact fun components => ih components

theorem keepsImporting_planComponents :
    Keeps WebWorld.importing (planComponents run views) := by
  unfold planComponents
  apply (keepsImporting_ofResult _).bind
  exact fun endpoints => keepsImporting_planViews endpoints _ _

/-! ## Code of the components -/

def Planned (base : List (Text × Component)) (name file : Text) : Prop :=
  exists comp, (name, comp) ∈ base ∧ comp.plan.file = file

/-- What holds of the prompts and answers while code is generated. -/
structure Progress (run : WebRun) (base : List (Text × Component))
    (prompts : List Prompt) (made : Generated) : Prop where
  answered : forall entry,
    entry ∈ (prompts.filterMap Prompt.asComponent).zipIdx ->
      exists answer, run.components entry.2 = .ok answer ∧
        Written made.files entry.1.component.plan.file ∧
        forall store, store ∈ answer.importedStores ->
          Stocked made.stores store.file
  told : forall prompt, prompt ∈ prompts.filterMap Prompt.asComponent ->
    forall entry,
      entry ∈ (prompt.name, prompt.component) :: prompt.related ->
        Planned base entry.1 entry.2.plan.file
  plans : forall name comp, made.components.lookup name = some comp ->
    Planned base name comp.plan.file

theorem files_of_add {made next : Generated} {service : WebpageService}
    {compName : Text} {comp : Component} {answer : ComponentAnswer}
    (h : made.add mergeState service compName comp answer = .ok next) :
    next.files = assignEntry made.files comp.plan.file answer.code ∧
      next.components =
        setEntry made.components compName { comp with spec := answer.spec } ∧
      forall file, Stocked next.stores file <->
        Stocked made.stores file ∨
          exists store, store ∈ answer.importedStores ∧ file = store.file := by
  rcases Fallible.exists_of_bind_ok h with ⟨stores, hstores, h1⟩
  cases h1
  exact ⟨rfl, rfl, stocked_importStores hstores⟩

theorem Progress.add {base : List (Text × Component)} {prompts : List Prompt}
    {made next : Generated} (h : Progress run base prompts made)
    {service : WebpageService} {prompt : ComponentPrompt}
    {asked : Prompt} (hasked : asked.asComponent = some prompt)
    (hbase : (prompt.name, prompt.component) ∈ base)
    (hrelated : forall entry, entry ∈ prompt.related ->
      made.components.lookup entry.1 = some entry.2)
    {answer : ComponentAnswer}
    (hanswer : run.components (prompts.filterMap Prompt.asComponent).length =
      .ok answer)
    (hadd : made.add mergeState service prompt.name prompt.component answer =
      .ok next) : Progress run base (prompts ++ [asked]) next := by
  rcases files_of_add hadd with ⟨hfiles, hcomponents, hstores⟩
  have hprompts : (prompts ++ [asked]).filterMap Prompt.asComponent =
      prompts.filterMap Prompt.asComponent ++ [prompt] := by
    simp [hasked]
  refine ⟨?_, ?_, ?_⟩
  · intro entry hentry
    rw [hprompts, List.zipIdx_append] at hentry
    rcases List.mem_append.mp hentry with hold | hnew
    · rcases h.answered entry hold with ⟨other, hother, hwritten, hstocked⟩
      refine ⟨other, hother, ?_, ?_⟩
      · rw [hfiles]
        exact hwritten.assignEntry _ _
      · intro store hstore
        exact (hstores store.file).mpr (Or.inl (hstocked store hstore))
    · simp only [List.zipIdx_singleton, List.mem_singleton] at hnew
      rw [hnew]
      refine ⟨answer, by simpa using hanswer, ?_, ?_⟩
      · rw [hfiles]
        exact written_assignEntry_self _ _ _
      · intro store hstore
        exact (hstores store.file).mpr (Or.inr ⟨store, hstore, rfl⟩)
  · intro other hother entry hentry
    rw [hprompts] at hother
    rcases List.mem_append.mp hother with hold | hnew
    · exact h.told other hold entry hentry
    · rw [List.mem_singleton.mp hnew] at hentry
      rcases List.mem_cons.mp hentry with hself | hmem
      · rw [hself]
        exact ⟨prompt.component, hbase, rfl⟩
      · exact h.plans entry.1 entry.2 (hrelated entry hmem)
  · intro name comp hlookup
    rw [hcomponents] at hlookup
    by_cases hsame : name = prompt.name
    · rw [hsame, lookup_setEntry_self] at hlookup
      rw [hsame, ← Option.some.inj hlookup]
      exact ⟨prompt.component, hbase, rfl⟩
    · rw [lookup_setEntry_of_ne hsame] at hlookup
      exact h.plans name comp hlookup

theorem lookup_of_related {components : List (Text × Component)}
    {compName : Text} {relatedViews : List RelatedView}
    {entry : Text × Component}
    (h : entry ∈ relatedComponents components compName relatedViews) :
    components.lookup entry.1 = some entry.2 := by
  unfold relatedComponents at h
  rcases List.mem_filterMap.mp h with ⟨name, _, hname⟩
  rcases Option.map_eq_some_iff.mp hname with ⟨comp, hcomp, heq⟩
  rw [← heq]
  exact hcomp

theorem progress_generateComponents {base : List (Text × Component)}
    {viewComps : List (Text × List Text)} {entries : List (Text × Component)}
    {made last : Generated} {world final : WebWorld}
    (hprogress : Progress run base world.importing made)
    (hentries : forall entry, entry ∈ entries -> entry ∈ base)
    (hcomponents : forall prompt, prompt ∈ world.importing ->
      prompt.asComponent.isSome)
    (h : exec (generateComponents mergeState run views viewComps
        (entries.zipIdx (world.importing.filterMap
          Prompt.asComponent).length) made) world = (.ok last, final)) :
    Progress run base final.importing last ∧
      (forall prompt, prompt ∈ final.importing -> prompt.asComponent.isSome) ∧
      Keeping made.files last.files ∧
      forall entry, entry ∈ entries ->
        Written last.files entry.2.plan.file := by
  induction entries generalizing made world with
  | nil =>
      rcases exec_pure_eq_ok h with ⟨hmade, hworld⟩
      rw [← hmade, ← hworld]
      exact ⟨hprogress, hcomponents, Keeping.refl _,
        fun _ hentry => nomatch hentry⟩
  | cons entry rest ih =>
      rcases entry with ⟨compName, comp⟩
      rw [List.zipIdx_cons] at h
      unfold generateComponents at h
      rcases exec_bind_eq_ok h with ⟨endpoints, w1, hendpoints, h1⟩
      rcases exec_bind_eq_ok h1 with ⟨relatedViews, w2, hviews, h2⟩
      rcases exec_bind_eq_ok h2 with ⟨answer, w3, hask, h3⟩
      rcases exec_bind_eq_ok h3 with ⟨w, w4, hget, h4⟩
      rcases exec_bind_eq_ok h4 with ⟨next, w5, hadd, h5⟩
      have hw2 : w2 = world :=
        ((congrArg Prod.snd hviews).symm.trans
          (congrArg Prod.snd hendpoints).symm)
      rw [exec_askAgent, hw2] at hask
      rcases Prod.mk.inj hask with ⟨hanswer, hw3⟩
      cases hget
      have hw5 : w5 = w3 := (congrArg Prod.snd hadd).symm
      have hnext := congrArg Prod.fst hadd
      rw [hw5] at h5
      have himporting : exists asked : Prompt,
          asked.asComponent = some ⟨compName, comp,
            relatedComponents made.components compName relatedViews⟩ ∧
          w3.importing = world.importing ++ [asked] := by
        rw [← hw3]
        exact ⟨_, rfl, importing_append world _⟩
      rcases himporting with ⟨asked, hasked, himporting⟩
      have hlength : (w3.importing.filterMap Prompt.asComponent).length =
          (world.importing.filterMap Prompt.asComponent).length + 1 := by
        simp [himporting, hasked]
      have hself := hentries (compName, comp) List.mem_cons_self
      have hstep : Progress run base w3.importing next := by
        rw [himporting]
        exact hprogress.add hasked hself (fun entry => lookup_of_related)
          hanswer hnext
      have hcomponents' : forall prompt, prompt ∈ w3.importing ->
          prompt.asComponent.isSome := by
        intro prompt hprompt
        rw [himporting] at hprompt
        rcases List.mem_append.mp hprompt with hold | hnew
        · exact hcomponents prompt hold
        · rw [List.mem_singleton.mp hnew, hasked]
          rfl
      rw [← hlength] at h5
      rcases ih hstep (fun entry hentry =>
          hentries entry (List.mem_cons_of_mem _ hentry)) hcomponents' h5 with
        ⟨hlast, hall, hkeeping, hwritten⟩
      rw [(files_of_add hnext).left] at hkeeping
      refine ⟨hlast, hall, (keeping_assignEntry _ _ _).trans hkeeping, ?_⟩
      intro entry hentry
      rcases List.mem_cons.mp hentry with hfirst | hmem
      · rw [hfirst]
        exact hkeeping.written _ (written_assignEntry_self _ _ _)
      · exact hwritten entry hmem

/-! ## Code of the stores and the views -/

theorem keepsImporting_generateStores (apiBaseUrl : Text)
    (list : List (Store × Nat)) (packages : Packages)
    (files : List (Text × Text)) :
    Keeps WebWorld.importing
      (generateStores run apiBaseUrl list packages files) := by
  induction list generalizing packages files with
  | nil => exact Keeps.pure _
  | cons entry rest ih =>
      unfold generateStores
      apply (keepsImporting_ofResult _).bind
      intro endpoints
      apply (keepsImporting_askAgent fun _ => rfl).bind
      intro answer
      apply Keeps.get.bind
      intro world
      exact ih _ _

theorem written_generateStores {apiBaseUrl : Text}
    {list : List (Store × Nat)} {packages : Packages}
    {files : List (Text × Text)} {world final : WebWorld}
    {result : Packages × List (Text × Text)}
    (h : exec (generateStores run apiBaseUrl list packages files) world =
      (.ok result, final)) :
    Keeping files result.2 ∧
      forall entry, entry ∈ list -> Written result.2 entry.1.file := by
  induction list generalizing packages files world with
  | nil =>
      rcases exec_pure_eq_ok h with ⟨hresult, _⟩
      rw [← hresult]
      exact ⟨Keeping.refl _, fun _ hentry => nomatch hentry⟩
  | cons entry rest ih =>
      unfold generateStores at h
      rcases exec_bind_eq_ok h with ⟨endpoints, w1, _, h1⟩
      rcases exec_bind_eq_ok h1 with ⟨answer, w2, _, h2⟩
      rcases exec_bind_eq_ok h2 with ⟨w, w3, _, h3⟩
      rcases ih h3 with ⟨hkeeping, hwritten⟩
      refine ⟨(keeping_assignEntry _ _ _).trans hkeeping, ?_⟩
      intro other hother
      rcases List.mem_cons.mp hother with hfirst | hmem
      · rw [hfirst]
        exact hkeeping.written _ (written_assignEntry_self _ _ _)
      · exact hwritten other hmem

theorem shown_generateViews {components : List (Text × Component)}
    {list : List ((Text × List Text) × Nat)} {packages : Packages}
    {files : List (Text × Text)} {world final : WebWorld}
    {result : Packages × List (Text × Text)}
    (hcomponents : forall name comp, components.lookup name = some comp ->
      Written files comp.plan.file)
    (h : exec (generateViews run views components list packages files) world =
      (.ok result, final)) :
    Keeping files result.2 ∧ exists pages,
      final.importing = world.importing ++ pages ∧
        forall prompt, prompt ∈ pages ->
          prompt.asComponent = none ∧ prompt.Shown result.2 := by
  induction list generalizing packages files world with
  | nil =>
      rcases exec_pure_eq_ok h with ⟨hresult, hworld⟩
      rw [← hresult, ← hworld]
      exact ⟨Keeping.refl _, [], (List.append_nil _).symm,
        fun _ hprompt => nomatch hprompt⟩
  | cons entry rest ih =>
      rcases entry with ⟨⟨name, compNames⟩, i⟩
      unfold generateViews at h
      rcases exec_bind_eq_ok h with ⟨view, w1, hview, h1⟩
      rcases exec_bind_eq_ok h1 with ⟨answer, w2, hask, h2⟩
      rcases exec_bind_eq_ok h2 with ⟨w, w3, hget, h3⟩
      cases hget
      have hw1 : w1 = world := (congrArg Prod.snd hview).symm
      rw [exec_askAgent, hw1] at hask
      have hw2 := (Prod.mk.inj hask).right
      have hkept : forall name comp, components.lookup name = some comp ->
          Written (assignEntry files view.file answer.code) comp.plan.file :=
        fun name comp hcomp => (hcomponents name comp hcomp).assignEntry _ _
      rcases ih hkept h3 with ⟨hkeeping, pages, hpages, hshown⟩
      have hfirst : exists page : Prompt, page.asComponent = none ∧
          page.Shown result.2 ∧ w2.importing = world.importing ++ [page] := by
        rw [← hw2]
        refine ⟨_, ?_, ?_, importing_append world _⟩
        · rfl
        · refine ⟨hkeeping.written _ (written_assignEntry_self _ _ _), ?_⟩
          intro shown hmem
          rcases List.mem_filterMap.mp hmem with ⟨compName, _, hcompName⟩
          rcases Option.map_eq_some_iff.mp hcompName with ⟨comp, hcomp, heq⟩
          rw [← heq]
          exact hkeeping.written _ (hkept compName comp hcomp)
      rcases hfirst with ⟨page, hpage, hpageShown, himporting⟩
      refine ⟨(keeping_assignEntry _ _ _).trans hkeeping, page :: pages, ?_,
        ?_⟩
      · rw [hpages, himporting, List.append_assoc]
        rfl
      · intro prompt hprompt
        rcases List.mem_cons.mp hprompt with heq | hmem
        · rw [heq]
          exact ⟨hpage, hpageShown⟩
        · exact hshown prompt hmem

/-! ## Everything that is imported -/

theorem exists_of_genVue3Component {names : List Json}
    {answer : ComponentAnswer}
    (h : genVue3Component names answer = .ok true) :
    exists imported, importedComponents answer.spec = .ok imported ∧
      forall c, c ∈ imported -> exists name, name ∈ names ∧
        Json.sameValue (some name) (some c) = true := by
  unfold genVue3Component at h
  rcases Fallible.exists_of_bind_ok h with ⟨versioned, _, h1⟩
  split at h1
  · cases h1
  · rcases Fallible.exists_of_bind_ok h1 with ⟨imported, himported, h2⟩
    refine ⟨imported, himported, ?_⟩
    intro c hc
    have hcheck := Fallible.forall_of_allM h2 c hc
    unfold checkImport at hcheck
    split at hcheck
    · rename_i hany
      exact List.any_eq_true.mp hany
    · cases hcheck

theorem Progress.planned {base : List (Text × Component)}
    {prompts : List Prompt} {made : Generated}
    (h : Progress run base prompts made) {prompt : ComponentPrompt}
    (hprompt : prompt ∈ prompts.filterMap Prompt.asComponent)
    {entry : Json × Component} (hentry : entry ∈ prompt.told) :
    exists name, Planned base name entry.2.plan.file := by
  rcases List.mem_cons.mp hentry with hself | hrelated
  · rw [hself]
    exact ⟨prompt.name, h.told prompt hprompt _ List.mem_cons_self⟩
  · rcases List.mem_map.mp hrelated with ⟨related, hmem, heq⟩
    rw [← heq]
    exact ⟨related.1,
      h.told prompt hprompt related (List.mem_cons_of_mem _ hmem)⟩

theorem Progress.resolved {base : List (Text × Component)}
    {prompts : List Prompt} {made : Generated}
    (h : Progress run base prompts made) {files : List (Text × Text)}
    (hkeeping : Keeping made.files files)
    (hbase : forall name file, Planned base name file -> Written files file)
    (hstores : forall s, s ∈ made.stores -> Written files s.file)
    {entry : ComponentPrompt × Nat}
    (hentry : entry ∈ (prompts.filterMap Prompt.asComponent).zipIdx) :
    exists answer, run.components entry.2 = .ok answer ∧
      Resolved files entry.1 answer := by
  rcases h.answered entry hentry with ⟨answer, hanswer, hown, hstocked⟩
  have hmem := List.fst_mem_of_mem_zipIdx hentry
  refine ⟨answer, hanswer, hkeeping.written _ hown, ?_, ?_⟩
  · intro store hstore
    rcases hstocked store hstore with ⟨s, hs, hfile⟩
    rw [← hfile]
    exact hstores s hs
  · intro hvalid
    rcases exists_of_genVue3Component hvalid with ⟨imported, himported, hall⟩
    refine ⟨imported, himported, ?_⟩
    intro c hc
    rcases hall c hc with ⟨name, hname, hsame⟩
    rcases List.mem_map.mp hname with ⟨told, htold, hfst⟩
    rcases h.planned hmem htold with ⟨planned, hplanned⟩
    refine ⟨told, htold, ?_, hbase _ _ hplanned⟩
    rw [hfst]
    exact hsame

theorem closed_of_importing {prompts pages : List Prompt}
    {files : List (Text × Text)} {importing : List Prompt}
    (hsplit : prompts.filter Prompt.isImporting = importing ++ pages)
    (hcomponents : forall prompt, prompt ∈ importing ->
      prompt.asComponent.isSome)
    (hpages : forall prompt, prompt ∈ pages ->
      prompt.asComponent = none ∧ prompt.Shown files)
    (hresolved : forall entry,
      entry ∈ (importing.filterMap Prompt.asComponent).zipIdx ->
        exists answer, run.components entry.2 = .ok answer ∧
          Resolved files entry.1 answer)
    (hproto : files.lookup protoName = none) : Closed run prompts files := by
  have hasked : prompts.filterMap Prompt.asComponent =
      importing.filterMap Prompt.asComponent := by
    have hnone : pages.filterMap Prompt.asComponent = [] :=
      List.filterMap_eq_nil_iff.mpr fun prompt hprompt =>
        (hpages prompt hprompt).left
    have hfilter : (prompts.filter Prompt.isImporting).filterMap
        Prompt.asComponent = prompts.filterMap Prompt.asComponent := by
      rw [List.filterMap_filter]
      congr 1
      funext prompt
      cases prompt with
      | component name comp endpoints related views others stores packages =>
          rfl
      | view page others components packages => rfl
      | route requirement => rfl
      | components view others components endpoints packages => rfl
      | store store endpoints apiBaseUrl packages => rfl
    rw [← hfilter, hsplit, List.filterMap_append, hnone, List.append_nil]
  refine ⟨?_, ?_, hproto⟩
  · intro entry hentry
    rw [hasked] at hentry
    exact hresolved entry hentry
  · intro prompt hprompt
    cases prompt with
    | view page others components packages =>
        have hmem : Prompt.view page others components packages ∈
            importing ++ pages := by
          rw [← hsplit]
          exact List.mem_filter.mpr ⟨hprompt, rfl⟩
        rcases List.mem_append.mp hmem with himporting | hpage
        · cases hcomponents _ himporting
        · exact (hpages _ hpage).right
    | component name comp endpoints related views others stores packages =>
        exact True.intro
    | route requirement => exact True.intro
    | components view others components endpoints packages =>
        exact True.intro
    | store store endpoints apiBaseUrl packages => exact True.intro

/-! ## Runs -/

theorem mem_of_lookup {v : Type} {entries : List (Text × v)} {name : Text}
    {value : v} (h : entries.lookup name = some value) :
    (name, value) ∈ entries := by
  rcases List.lookup_eq_some_iff.mp h with ⟨before, after, hsplit, _⟩
  rw [hsplit]
  exact List.mem_append_right _ List.mem_cons_self

theorem progress_start (run : WebRun) (components : List (Text × Component)) :
    Progress run components [] ⟨components, [], .initial, []⟩ where
  answered := fun _ hentry => nomatch hentry
  told := fun _ hprompt => nomatch hprompt
  plans := fun _ comp hlookup => ⟨comp, mem_of_lookup hlookup, rfl⟩

theorem progress_generateFromViews {world final : WebWorld}
    {made : Generated × List (Text × List Text)}
    (hworld : world.importing = [])
    (h : exec (generateFromViews mergeState run views) world =
      (.ok made, final)) :
    exists components, Progress run components final.importing made.1 ∧
      (forall prompt, prompt ∈ final.importing ->
        prompt.asComponent.isSome) ∧
      made.1.files.lookup protoName = none ∧
      forall name file, Planned components name file ->
        Written made.1.files file := by
  unfold generateFromViews at h
  rcases exec_bind_eq_ok h with ⟨components, w1, hplan, h1⟩
  rcases exec_bind_eq_ok h1 with ⟨viewComps, w2, hviewComps, h2⟩
  rcases exec_bind_eq_ok h2 with ⟨last, w3, hgenerate, h3⟩
  rcases exec_pure_eq_ok h3 with ⟨hmade, hfinal⟩
  have hsame : w1 = w2 := congrArg Prod.snd hviewComps
  have hw2 : w2.importing = [] := by
    rw [← hsame, ← hworld]
    exact keepsImporting_planComponents.of_ok hplan
  have hstart : Progress run components w2.importing
      ⟨components, [], .initial, []⟩ := by
    rw [hw2]
    exact progress_start run components
  have hentries : forall entry, entry ∈ inOrder components ->
      entry ∈ components :=
    fun _ => (inOrder_perm components).mem_iff.mp
  have hnone : forall prompt, prompt ∈ w2.importing ->
      prompt.asComponent.isSome := by
    rw [hw2]
    exact fun _ hprompt => nomatch hprompt
  have hlength : 0 = (w2.importing.filterMap Prompt.asComponent).length := by
    rw [hw2]
    rfl
  rw [hlength] at hgenerate
  rcases progress_generateComponents hstart hentries hnone hgenerate with
    ⟨hprogress, hcomponents, hkeeping, hwritten⟩
  rw [← hmade, ← hfinal]
  refine ⟨components, hprogress, hcomponents, hkeeping.proto rfl, ?_⟩
  intro name file hplanned
  rcases hplanned with ⟨comp, hmem, hfile⟩
  rw [← hfile]
  exact hwritten _ ((inOrder_perm components).mem_iff.mpr hmem)

theorem closed_generateRest {apiBaseUrl : Text} {made : Generated}
    {viewComps : List (Text × List Text)} {packages : Packages}
    {components : List (Text × Component)} {world final : WebWorld}
    {response : WebResponse}
    (hprogress : Progress run components world.importing made)
    (hcomponents : forall prompt, prompt ∈ world.importing ->
      prompt.asComponent.isSome)
    (hproto : made.files.lookup protoName = none)
    (hplanned : forall name file, Planned components name file ->
      Written made.files file)
    (h : exec (generateRest run apiBaseUrl views made viewComps packages)
      world = (.ok response, final)) :
    Closed run final.prompts response.files := by
  unfold generateRest at h
  rcases exec_bind_eq_ok h with ⟨stored, w1, hstores, h1⟩
  rcases exec_bind_eq_ok h1 with ⟨shown, w2, hviews, h2⟩
  rcases exec_bind_eq_ok h2 with ⟨w, w3, hget, h3⟩
  cases hget
  rcases exec_pure_eq_ok h3 with ⟨hresponse, hfinal⟩
  have hw1 : w1.importing = world.importing :=
    (keepsImporting_generateStores apiBaseUrl _ _ _).of_ok hstores
  rcases written_generateStores hstores with ⟨hkeepStores, hwritten⟩
  have hshownComponents : forall name comp,
      made.components.lookup name = some comp ->
        Written stored.2 comp.plan.file :=
    fun name comp hcomp =>
      hkeepStores.written _ (hplanned _ _ (hprogress.plans name comp hcomp))
  rcases shown_generateViews hshownComponents hviews with
    ⟨hkeepViews, pages, hpages, hshown⟩
  rw [← hresponse, ← hfinal]
  rw [hw1] at hpages
  have hkeeping := hkeepStores.trans hkeepViews
  refine closed_of_importing hpages hcomponents hshown ?_ (hkeeping.proto hproto)
  intro entry hentry
  apply hprogress.resolved hkeeping _ _ hentry
  · exact fun name file hplan => hkeeping.written _ (hplanned name file hplan)
  · intro s hs
    have hmem : exists i, (s, i) ∈ made.stores.zipIdx := by
      rcases List.getElem_of_mem hs with ⟨i, hi, heq⟩
      refine ⟨i, List.mk_mem_zipIdx_iff_getElem?.mpr ?_⟩
      rw [List.getElem?_eq_getElem hi, heq]
    rcases hmem with ⟨i, hi⟩
    exact hkeepViews.written _ (hwritten (s, i) hi)

theorem importing_pushPackages {packages next : Packages}
    {world final : WebWorld}
    (h : exec (pushPackages packages) world = (.ok next, final)) :
    final.importing = world.importing := by
  unfold pushPackages at h
  cases packages with
  | initial =>
      rcases exec_bind_eq_ok h with ⟨_, w, hmodify, h1⟩
      cases hmodify
      cases h1
      rfl
  | own list =>
      rcases exec_bind_eq_ok h with ⟨_, w, hget, h1⟩
      cases hget
      cases h1
      rfl

end Loops

/-- Whatever is answered, a site that is responded has all the code that its
own code imports: a component that is written has its file, those of the
stores that it imports and of the components whose names its check lets
through, and a view has its file and those of its components. -/
theorem closed_of_run (mergeState : Container -> List (Text × Node) ->
    Except Thrown Container) (service : WebpageService) (run : WebRun) :
    match runOnce mergeState service run with
    | (.ok response, world) => Closed run world.prompts response.files
    | (.error _, _) => True := by
  split
  · rename_i response world h
    unfold runOnce genWebpages at h
    rcases exec_bind_eq_ok h with ⟨start, w0, hstart, h0⟩
    cases hstart
    split at h0
    · cases h0
    · rcases exec_bind_eq_ok h0 with ⟨views, w1, hroute, h1⟩
      rcases exec_bind_eq_ok h1 with ⟨made, w2, hmade, h2⟩
      rcases exec_bind_eq_ok h2 with ⟨packages, w3, hpush, h3⟩
      have hw1 : w1.importing = [] :=
        (keepsImporting_askAgent fun _ => rfl).of_ok hroute
      rcases progress_generateFromViews hw1 hmade with
        ⟨components, hprogress, hcomponents, hproto, hplanned⟩
      have hw3 := importing_pushPackages hpush
      rw [← hw3] at hprogress hcomponents
      exact closed_generateRest hprogress hcomponents hproto hplanned h3
  · exact True.intro

end Web
end CallgentApi
