import CallgentApi.Web.Webpages

/-!
# Runs that share the lists of packages

A run starts from the configured list of packages as long as no run before it
has appended to the list itself.
-/

namespace CallgentApi
namespace Web

open Js Event Agents Effect

section Runs

variable (mergeState : Container -> List (Text × Node) ->
  Except Thrown Container)

/-- A run of an instance of the service, with what it asks. -/
def runOnce (service : WebpageService) (run : WebRun) :
    Except Thrown WebResponse × WebWorld :=
  exec (genWebpages mergeState run) ⟨service, []⟩

def serviceAfter (config : WebpageService) (runs : List WebRun) :
    WebpageService :=
  runs.foldl (fun service run => (runOnce mergeState service run).2.service)
    config

/-- Every run starts from the configured list, and asks and answers what it
would in an instance of its own. -/
def Independent (config : WebpageService) (runs : List WebRun) : Prop :=
  forall before run after, runs = before ++ run :: after ->
    let service := serviceAfter mergeState config before
    service.initPackagesComponent = config.initPackagesComponent ∧
      (runOnce mergeState service run).1 = (runOnce mergeState config run).1 ∧
      (runOnce mergeState service run).2.prompts =
        (runOnce mergeState config run).2.prompts

/-! ## Runs that work on the list of the service -/

/-- The state in which the components are planned. -/
def asked (service : WebpageService) (run : WebRun) : WebWorld :=
  ⟨service, [.route run.requirement]⟩

def plannedComponents (run : WebRun) (views : List View) :
    Except Thrown (List (Text × Component)) := do
  let _ ← run.endpoints.mapM shownParams
  views.zipIdx.foldlM (fun components entry => do
    (← run.plans entry.2).foldlM (addComponent entry.1) components) []

/-- The stores that the answers for the components import. -/
def importedStores (run : WebRun) (stores : List Store)
    (entries : List ((Text × Component) × Nat)) : Except Thrown (List Store) :=
  entries.foldlM (fun stores entry => do
    (← run.components entry.2).importedStores.foldlM
      (importStore mergeState entry.1.2) stores) stores

/-- The endpoints of the component and the views that it is in are there. -/
def Component.Found (run : WebRun) (views : List View)
    (viewComps : List (Text × List Text)) (comp : Component) : Prop :=
  (exists endpoints,
    comp.plan.endpoints.mapM (endpointOf run) = .ok endpoints) ∧
  exists relatedViews, relatedViewsOf views viewComps comp = .ok relatedViews

/-- The code of all components is answered, nothing that it needs is missing,
and no answer for a component has packages. -/
def Shares (run : WebRun) : Prop :=
  exists host views components viewComps stores,
    run.host = some host ∧ run.views = .ok views ∧
      plannedComponents run views = .ok components ∧
      componentsOfViews components = .ok viewComps ∧
      (forall entry, entry ∈ components ->
        entry.2.Found run views viewComps) ∧
      importedStores mergeState run [] (inOrder components).zipIdx =
        .ok stores ∧
      forall i, i < components.length ->
        forall answer, run.components i = .ok answer -> answer.packages = []

def Leaks (service : WebpageService) (run : WebRun) : Prop :=
  service.initPackagesStore ≠ [] ∧ Shares mergeState run

end Runs

/-! ## Steps that leave the service as it is -/

theorem keeps_ofResult {a : Type} (x : Except Thrown a) :
    Keeps WebWorld.service (ofResult x : WebAction a) :=
  fun _ => rfl

theorem keeps_askAgent {a : Type} (prompt : WebpageService -> Prompt)
    (answer : Except Thrown a) :
    Keeps WebWorld.service (askAgent prompt answer) := by
  apply Keeps.bind
  · exact Keeps.modify fun _ => rfl
  · exact fun _ => keeps_ofResult answer

theorem keeps_planViews (run : WebRun) (views : List View)
    (endpoints : List (WebEndpoint × List Value)) (list : List (View × Nat))
    (components : List (Text × Component)) :
    Keeps WebWorld.service
      (planViews run views endpoints list components) := by
  induction list generalizing components with
  | nil => exact Keeps.pure components
  | cons entry rest ih =>
      unfold planViews
      apply (keeps_askAgent _ _).bind
      intro cps
      apply (keeps_ofResult _).bind
      intro next
      exact ih next

theorem keeps_planComponents (run : WebRun) (views : List View) :
    Keeps WebWorld.service (planComponents run views) := by
  unfold planComponents
  apply (keeps_ofResult _).bind
  intro endpoints
  exact keeps_planViews run views endpoints _ _

section Keeps

variable {mergeState : Container -> List (Text × Node) ->
  Except Thrown Container}

theorem keeps_generateComponents (run : WebRun) (views : List View)
    (viewComps : List (Text × List Text))
    (list : List ((Text × Component) × Nat)) (made : Generated) :
    Keeps WebWorld.service
      (generateComponents mergeState run views viewComps list made) := by
  induction list generalizing made with
  | nil => exact Keeps.pure made
  | cons entry rest ih =>
      unfold generateComponents
      apply (keeps_ofResult _).bind
      intro endpoints
      apply (keeps_ofResult _).bind
      intro relatedViews
      apply (keeps_askAgent _ _).bind
      intro answer
      apply Keeps.get.bind
      intro world
      apply (keeps_ofResult _).bind
      intro next
      exact ih next

theorem keeps_generateFromViews (run : WebRun) (views : List View) :
    Keeps WebWorld.service (generateFromViews mergeState run views) := by
  unfold generateFromViews
  apply (keeps_planComponents run views).bind
  intro components
  apply (keeps_ofResult _).bind
  intro viewComps
  apply (keeps_generateComponents run views viewComps _ _).bind
  intro made
  exact Keeps.pure _

theorem keeps_generateStores (run : WebRun) (apiBaseUrl : Text)
    (list : List (Store × Nat)) (packages : Packages)
    (files : List (Text × Text)) :
    Keeps WebWorld.service
      (generateStores run apiBaseUrl list packages files) := by
  induction list generalizing packages files with
  | nil => exact Keeps.pure _
  | cons entry rest ih =>
      unfold generateStores
      apply (keeps_ofResult _).bind
      intro endpoints
      apply (keeps_askAgent _ _).bind
      intro answer
      apply Keeps.get.bind
      intro world
      exact ih _ _

theorem keeps_generateViews (run : WebRun) (views : List View)
    (components : List (Text × Component))
    (list : List ((Text × List Text) × Nat)) (packages : Packages)
    (files : List (Text × Text)) :
    Keeps WebWorld.service
      (generateViews run views components list packages files) := by
  induction list generalizing packages files with
  | nil => exact Keeps.pure _
  | cons entry rest ih =>
      unfold generateViews
      apply (keeps_ofResult _).bind
      intro view
      apply (keeps_askAgent _ _).bind
      intro answer
      apply Keeps.get.bind
      intro world
      exact ih _ _

end Keeps

/-! ## Whether the list is that of the service -/

theorem merge_eq_initial {packages : Packages} {service : WebpageService}
    {others : List Text} :
    packages.merge service others = .initial <->
      packages = .initial ∧ others = [] := by
  unfold Packages.merge
  cases others with
  | nil =>
      rw [if_pos List.isEmpty_nil]
      exact (and_iff_left rfl).symm
  | cons first rest =>
      apply iff_of_false
      · exact fun h => nomatch h
      · exact fun h => nomatch h.right

section Initial

variable {mergeState : Container -> List (Text × Node) ->
  Except Thrown Container}

theorem packages_of_add {made next : Generated} {service : WebpageService}
    {compName : Text} {comp : Component} {answer : ComponentAnswer}
    (h : made.add mergeState service compName comp answer = .ok next) :
    next.packages = made.packages.merge service answer.packages := by
  rcases Fallible.exists_of_bind_ok h with ⟨stores, _, h1⟩
  cases h1
  rfl

theorem initial_of_generateComponents {run : WebRun} {views : List View}
    {viewComps : List (Text × List Text)}
    {list : List ((Text × Component) × Nat)} {made last : Generated}
    {world final : WebWorld}
    (h : exec (generateComponents mergeState run views viewComps list made)
      world = (.ok last, final)) :
    last.packages = .initial <->
      made.packages = .initial ∧ forall entry, entry ∈ list ->
        forall answer, run.components entry.2 = .ok answer ->
          answer.packages = [] := by
  induction list generalizing made world with
  | nil =>
      rcases exec_pure_eq_ok h with ⟨hmade, _⟩
      rw [hmade]
      exact (and_iff_left fun _ hentry => nomatch hentry).symm
  | cons entry rest ih =>
      unfold generateComponents at h
      rcases exec_bind_eq_ok h with ⟨endpoints, w1, _, h1⟩
      rcases exec_bind_eq_ok h1 with ⟨relatedViews, w2, _, h2⟩
      rcases exec_bind_eq_ok h2 with ⟨answer, w3, hask, h3⟩
      rcases exec_bind_eq_ok h3 with ⟨w, w4, _, h4⟩
      rcases exec_bind_eq_ok h4 with ⟨next, w5, hadd, h5⟩
      have hanswer : run.components entry.2 = .ok answer := by
        rcases exec_bind_eq_ok hask with ⟨_, _, _, hresult⟩
        exact congrArg Prod.fst hresult
      have hnext := packages_of_add (congrArg Prod.fst hadd)
      rw [ih h5, hnext, merge_eq_initial, List.forall_mem_cons, and_assoc]
      apply and_congr_right'
      apply and_congr_left'
      constructor
      · intro hnil other hother
        rw [← Except.ok.inj (hanswer.symm.trans hother)]
        exact hnil
      · intro hall
        exact hall answer hanswer

/-! ## How far the answers lead -/

theorem fst_planViews (run : WebRun) (views : List View)
    (endpoints : List (WebEndpoint × List Value)) (list : List (View × Nat))
    (components : List (Text × Component)) (world : WebWorld) :
    (exec (planViews run views endpoints list components) world).1 =
      list.foldlM (fun components entry => do
        (← run.plans entry.2).foldlM (addComponent entry.1) components)
        components := by
  induction list generalizing components world with
  | nil => rfl
  | cons entry rest ih =>
      rw [List.foldlM_cons]
      unfold planViews
      have hask := exec_askAgent (fun service =>
        .components entry.1 (views.filter fun v => v.name != entry.1.name)
          components endpoints service.initPackagesComponent)
        (run.plans entry.2) world
      cases hplan : run.plans entry.2 with
      | error e =>
          rw [hplan] at hask
          rw [exec_bind_of_error hask]
          rfl
      | ok cps =>
          rw [hplan] at hask
          rw [exec_bind_of_ok hask, Fallible.ok_bind]
          cases hadded : cps.foldlM (addComponent entry.1) components with
          | error e => rfl
          | ok added =>
              rw [exec_ofResult_bind_ok rfl]
              exact ih added _

theorem fst_planComponents (run : WebRun) (views : List View)
    (world : WebWorld) :
    (exec (planComponents run views) world).1 =
      plannedComponents run views := by
  unfold planComponents plannedComponents
  cases hshown : run.endpoints.mapM shownParams with
  | error e => rfl
  | ok endpoints =>
      rw [exec_ofResult_bind_ok rfl]
      exact fst_planViews run views endpoints _ _ world

theorem generateComponents_ok_iff {run : WebRun} {views : List View}
    {viewComps : List (Text × List Text)}
    {list : List ((Text × Component) × Nat)} (made : Generated)
    (world : WebWorld) :
    (exists last, (exec (generateComponents mergeState run views viewComps list
      made) world).1 = .ok last) <->
    (forall entry, entry ∈ list -> entry.1.2.Found run views viewComps) ∧
      exists stores, importedStores mergeState run made.stores list =
        .ok stores := by
  induction list generalizing made world with
  | nil =>
      apply iff_of_true
      · exact ⟨made, rfl⟩
      · exact ⟨fun _ hentry => (nomatch hentry), made.stores, rfl⟩
  | cons entry rest ih =>
      unfold importedStores
      rw [List.forall_mem_cons, List.foldlM_cons]
      constructor
      · intro h
        rcases h with ⟨last, h⟩
        unfold generateComponents at h
        rcases exec_bind_eq_ok (Prod.ext h rfl) with
          ⟨endpoints, w1, hendpoints, h1⟩
        rcases exec_bind_eq_ok h1 with ⟨relatedViews, w2, hviews, h2⟩
        rcases exec_bind_eq_ok h2 with ⟨answer, w3, hask, h3⟩
        rcases exec_bind_eq_ok h3 with ⟨w, w4, _, h4⟩
        rcases exec_bind_eq_ok h4 with ⟨next, w5, hadd, h5⟩
        rw [exec_askAgent] at hask
        have hanswer : run.components entry.2 = .ok answer :=
          congrArg Prod.fst hask
        rcases Fallible.exists_of_bind_ok (congrArg Prod.fst hadd) with
          ⟨stores, hstores, hnext⟩
        cases hnext
        rcases (ih _ _).mp ⟨last, congrArg Prod.fst h5⟩ with ⟨hrest, last', hlast⟩
        refine ⟨⟨⟨⟨endpoints, congrArg Prod.fst hendpoints⟩, relatedViews,
          congrArg Prod.fst hviews⟩, hrest⟩, last', ?_⟩
        rw [hanswer, Fallible.ok_bind, hstores]
        exact hlast
      · intro h
        rcases h with
          ⟨⟨⟨⟨endpoints, hendpoints⟩, relatedViews, hviews⟩, hrest⟩, last, h⟩
        rcases Fallible.exists_of_bind_ok h with ⟨stores, hhead, hlast⟩
        rcases Fallible.exists_of_bind_ok hhead with
          ⟨answer, hanswer, hstores⟩
        unfold generateComponents
        rw [exec_ofResult_bind_ok hendpoints, exec_ofResult_bind_ok hviews]
        dsimp only
        rw [hanswer, exec_bind_of_ok (exec_askAgent _ _ world),
          exec_bind_of_ok (exec_get _)]
        unfold Generated.add
        rw [hstores, Fallible.ok_bind]
        exact (ih _ _).mpr ⟨hrest, last, hlast⟩

theorem generateFromViews_ok_iff {run : WebRun} {views : List View}
    (world : WebWorld) :
    (exists made, (exec (generateFromViews mergeState run views) world).1 =
      .ok made) <->
    exists components viewComps stores,
      plannedComponents run views = .ok components ∧
      componentsOfViews components = .ok viewComps ∧
      (forall entry, entry ∈ components ->
        entry.2.Found run views viewComps) ∧
      importedStores mergeState run [] (inOrder components).zipIdx =
        .ok stores := by
  have hfound : forall (components : List (Text × Component))
      (viewComps : List (Text × List Text)),
      (forall entry, entry ∈ (inOrder components).zipIdx ->
        entry.1.2.Found run views viewComps) <->
      forall entry, entry ∈ components ->
        entry.2.Found run views viewComps := by
    intro components viewComps
    constructor
    · intro h entry hentry
      have hmem := (inOrder_perm components).mem_iff.mpr hentry
      rcases List.getElem_of_mem hmem with ⟨i, hi, heq⟩
      refine h (entry, i) (List.mk_mem_zipIdx_iff_getElem?.mpr ?_)
      rw [List.getElem?_eq_getElem hi, heq]
    · intro h entry hentry
      exact h entry.1 ((inOrder_perm components).mem_iff.mp
        (List.fst_mem_of_mem_zipIdx hentry))
  constructor
  · intro h
    rcases h with ⟨made, h⟩
    unfold generateFromViews at h
    rcases exec_bind_eq_ok (Prod.ext h rfl) with ⟨components, w1, hplan, h1⟩
    rcases exec_bind_eq_ok h1 with ⟨viewComps, w2, hviewComps, h2⟩
    rcases exec_bind_eq_ok h2 with ⟨last, w3, hgenerate, _⟩
    rcases (generateComponents_ok_iff _ _).mp
      ⟨last, congrArg Prod.fst hgenerate⟩ with ⟨hall, stores, hstores⟩
    refine ⟨components, viewComps, stores, ?_,
      congrArg Prod.fst hviewComps, (hfound _ _).mp hall, hstores⟩
    rw [← fst_planComponents run views world]
    exact congrArg Prod.fst hplan
  · intro h
    rcases h with
      ⟨components, viewComps, stores, hplan, hviewComps, hall, hstores⟩
    unfold generateFromViews
    rw [← fst_planComponents run views world] at hplan
    rw [exec_bind_of_ok (Prod.ext hplan rfl),
      exec_ofResult_bind_ok hviewComps]
    rcases (generateComponents_ok_iff ⟨components, [], .initial, []⟩
      (exec (planComponents run views) world).2).mpr
      ⟨(hfound _ _).mpr hall, stores, hstores⟩ with ⟨last, hlast⟩
    rw [exec_bind_of_ok (Prod.ext hlast rfl)]
    exact ⟨_, rfl⟩

theorem initial_of_generateFromViews {run : WebRun} {views : List View}
    {world final : WebWorld} {made : Generated × List (Text × List Text)}
    (h : exec (generateFromViews mergeState run views) world =
      (.ok made, final)) :
    made.1.packages = .initial <->
      forall components, plannedComponents run views = .ok components ->
        forall i, i < components.length ->
          forall answer, run.components i = .ok answer ->
            answer.packages = [] := by
  unfold generateFromViews at h
  rcases exec_bind_eq_ok h with ⟨components, w1, hplan, h1⟩
  rcases exec_bind_eq_ok h1 with ⟨viewComps, w2, _, h2⟩
  rcases exec_bind_eq_ok h2 with ⟨last, w3, hgenerate, h3⟩
  rcases exec_pure_eq_ok h3 with ⟨hmade, _⟩
  have hplanned : plannedComponents run views = .ok components := by
    rw [← fst_planComponents run views world]
    exact congrArg Prod.fst hplan
  have hlength : (inOrder components).length = components.length :=
    (inOrder_perm components).length_eq
  rw [← hmade, initial_of_generateComponents hgenerate]
  constructor
  · intro hall other hother i hi answer hanswer
    rw [← Except.ok.inj (hplanned.symm.trans hother)] at hi
    have hlt : i < (inOrder components).length := hlength.symm ▸ hi
    have hmem : ((inOrder components)[i], i) ∈ (inOrder components).zipIdx :=
      List.mk_mem_zipIdx_iff_getElem?.mpr (List.getElem?_eq_getElem hlt)
    exact hall.right _ hmem answer hanswer
  · intro hall
    refine ⟨rfl, ?_⟩
    intro entry hentry answer hanswer
    have hi := List.snd_lt_of_mem_zipIdx hentry
    rw [hlength] at hi
    exact hall components hplanned entry.2 hi answer hanswer

end Initial

/-! ## The service after a run -/

section After

variable {mergeState : Container -> List (Text × Node) ->
  Except Thrown Container}

theorem keeps_generateRest (run : WebRun) (apiBaseUrl : Text)
    (views : List View) (made : Generated)
    (viewComps : List (Text × List Text)) (packages : Packages) :
    Keeps WebWorld.service
      (generateRest run apiBaseUrl views made viewComps packages) := by
  unfold generateRest
  apply (keeps_generateStores _ _ _ _ _).bind
  intro stored
  apply (keeps_generateViews _ _ _ _ _ _).bind
  intro shown
  apply Keeps.get.bind
  intro world
  exact Keeps.pure _

theorem service_of_push (packages : Packages) (world : WebWorld)
    {a : Type} {k : Packages -> WebAction a}
    (hk : forall packages, Keeps WebWorld.service (k packages)) :
    (exec (pushPackages packages >>= k) world).2.service =
      match packages with
      | .initial => world.service.push
      | .own _ => world.service := by
  cases packages with
  | initial =>
      have hpush : exec (pushPackages .initial) world =
          (.ok .initial, { world with service := world.service.push }) :=
        rfl
      rw [exec_bind_of_ok hpush]
      exact hk _ _
  | own list =>
      have hpush : exec (pushPackages (.own list)) world =
          (.ok (.own (list ++ world.service.initPackagesStore)), world) :=
        rfl
      rw [exec_bind_of_ok hpush]
      exact hk _ _

theorem service_of_views {run : WebRun} {views : List View} {world : WebWorld}
    {a : Type} {k : Generated × List (Text × List Text) -> Packages ->
      WebAction a}
    (hk : forall made packages, Keeps WebWorld.service (k made packages)) :
    (exec (do
      let made ← generateFromViews mergeState run views
      let packages ← pushPackages made.1.packages
      k made packages) world).2.service =
    match (exec (generateFromViews mergeState run views) world).1 with
    | .ok made =>
        match made.1.packages with
        | .initial => world.service.push
        | .own _ => world.service
    | .error _ => world.service := by
  have hkeeps :
      (exec (generateFromViews mergeState run views) world).2.service =
        world.service :=
    keeps_generateFromViews run views world
  cases hmade : exec (generateFromViews mergeState run views) world with
  | mk result next =>
      rw [hmade] at hkeeps
      have hservice : next.service = world.service := hkeeps
      cases result with
      | error e =>
          rw [exec_bind_of_error hmade]
          exact hservice
      | ok made =>
          rw [exec_bind_of_ok hmade, service_of_push _ _ (hk made), hservice]

theorem shares_iff {run : WebRun} {host : Text} {views : List View}
    (hhost : run.host = some host) (hviews : run.views = .ok views)
    (world : WebWorld) :
    Shares mergeState run <->
      exists made, (exec (generateFromViews mergeState run views) world).1 =
        .ok made ∧ made.1.packages = .initial := by
  constructor
  · intro h
    rcases h with ⟨_, views', components, viewComps, stores, _, hviews', hplan,
      hviewComps, hfound, hstores, hall⟩
    rw [← Except.ok.inj (hviews.symm.trans hviews')] at hplan hfound
    rcases (generateFromViews_ok_iff world).mpr ⟨components, viewComps, stores, hplan,
      hviewComps, hfound, hstores⟩ with ⟨made, hmade⟩
    refine ⟨made, hmade, ?_⟩
    apply (initial_of_generateFromViews (Prod.ext hmade rfl)).mpr
    intro other hother
    rw [← Except.ok.inj (hplan.symm.trans hother)]
    exact hall
  · intro h
    rcases h with ⟨made, hmade, hinitial⟩
    rcases (generateFromViews_ok_iff world).mp ⟨made, hmade⟩ with
      ⟨components, viewComps, stores, hplan, hviewComps, hfound, hstores⟩
    have hall := (initial_of_generateFromViews (Prod.ext hmade rfl)).mp
      hinitial components hplan
    exact ⟨host, views, components, viewComps, stores, hhost, hviews, hplan,
      hviewComps, hfound, hstores, hall⟩

theorem service_of_run (service : WebpageService) (run : WebRun) :
    (Shares mergeState run ->
      (runOnce mergeState service run).2.service = service.push) ∧
    (¬Shares mergeState run ->
      (runOnce mergeState service run).2.service = service) := by
  unfold runOnce genWebpages
  rw [exec_bind_of_ok (exec_get _)]
  cases hhost : run.host with
  | none =>
      constructor
      · intro h
        rcases h with ⟨host, _, _, _, _, hsome, _⟩
        rw [hhost] at hsome
        cases hsome
      · intro _
        rfl
  | some host =>
      have hask : exec (askAgent (fun _ => .route run.requirement) run.views)
          ⟨service, []⟩ = (run.views, asked service run) :=
        rfl
      dsimp only
      cases hviews : run.views with
      | error e =>
          rw [hviews] at hask
          rw [exec_bind_of_error hask]
          constructor
          · intro h
            rcases h with ⟨_, views, _, _, _, _, hok, _⟩
            rw [hviews] at hok
            cases hok
          · exact fun _ => rfl
      | ok views =>
          rw [hviews] at hask
          rw [exec_bind_of_ok hask, shares_iff hhost hviews
            (asked service run)]
          have hafter := @service_of_views mergeState run views
            (asked service run) _ _ fun made packages =>
              keeps_generateRest run (service.siteRootUrl ++ host) views made.1
                made.2 packages
          constructor
          · intro h
            rcases h with ⟨made, hmade, hinitial⟩
            rw [hmade] at hafter
            dsimp only at hafter
            rw [hinitial] at hafter
            exact hafter
          · intro h
            cases hmade : (exec (generateFromViews mergeState run views)
                (asked service run)).1 with
            | error e =>
                rw [hmade] at hafter
                exact hafter
            | ok made =>
                rw [hmade] at hafter
                dsimp only at hafter
                cases hpackages : made.1.packages with
                | initial => exact absurd ⟨made, hmade, hpackages⟩ h
                | own list =>
                    rw [hpackages] at hafter
                    exact hafter

/-! ## Runs one after the other -/

theorem push_eq_self {service : WebpageService}
    (h : service.initPackagesStore = []) : service.push = service := by
  cases service with
  | mk components stores url =>
      have hstores : stores = [] := h
      rw [hstores]
      exact congrArg (WebpageService.mk · [] url) (List.append_nil components)

theorem service_of_not_leaks {service : WebpageService} {run : WebRun}
    (h : ¬Leaks mergeState service run) :
    (runOnce mergeState service run).2.service = service := by
  by_cases hshares : Shares mergeState run
  · have hnil : service.initPackagesStore = [] := by
      by_contra hstore
      exact h ⟨hstore, hshares⟩
    rw [(service_of_run service run).left hshares, push_eq_self hnil]
  · exact (service_of_run service run).right hshares

theorem others_of_run (service : WebpageService) (run : WebRun) :
    (runOnce mergeState service run).2.service.initPackagesStore =
        service.initPackagesStore ∧
      (runOnce mergeState service run).2.service.siteRootUrl =
        service.siteRootUrl := by
  by_cases hshares : Shares mergeState run
  · rw [(service_of_run service run).left hshares]
    exact ⟨rfl, rfl⟩
  · rw [(service_of_run service run).right hshares]
    exact ⟨rfl, rfl⟩

theorem others_of_runs (config : WebpageService) (runs : List WebRun) :
    (serviceAfter mergeState config runs).initPackagesStore =
        config.initPackagesStore ∧
      (serviceAfter mergeState config runs).siteRootUrl =
        config.siteRootUrl := by
  induction runs generalizing config with
  | nil => exact ⟨rfl, rfl⟩
  | cons run rest ih =>
      rcases ih (runOnce mergeState config run).2.service with ⟨hstore, hurl⟩
      rcases @others_of_run mergeState config run with ⟨hstore', hurl'⟩
      exact ⟨hstore.trans hstore', hurl.trans hurl'⟩

theorem service_of_none_leaks {config : WebpageService} {runs : List WebRun}
    (h : forall run, run ∈ runs -> ¬Leaks mergeState config run) :
    serviceAfter mergeState config runs = config := by
  induction runs with
  | nil => rfl
  | cons run rest ih =>
      rcases List.forall_mem_cons.mp h with ⟨hrun, hrest⟩
      show serviceAfter mergeState (runOnce mergeState config run).2.service
        rest = config
      rw [service_of_not_leaks hrun]
      exact ih hrest

theorem mem_dropLast_iff {runs : List WebRun} {run : WebRun} :
    run ∈ runs.dropLast <->
      exists before next after, runs = before ++ run :: next :: after := by
  constructor
  · intro h
    cases hlast : runs.getLast? with
    | none =>
        rw [List.getLast?_eq_none_iff.mp hlast] at h
        cases h
    | some last =>
        rcases List.mem_iff_append.mp h with ⟨before, after, hinit⟩
        have hruns : runs = runs.dropLast ++ [last] :=
          (List.dropLast_append_getLast? last hlast).symm
        rw [hinit, List.append_assoc] at hruns
        cases after with
        | nil => exact ⟨before, last, [], hruns⟩
        | cons next after => exact ⟨before, next, after ++ [last], hruns⟩
  · intro h
    rcases h with ⟨before, next, after, hruns⟩
    rw [hruns, List.dropLast_append_of_ne_nil (List.cons_ne_nil _ _)]
    exact List.mem_append_right before List.mem_cons_self

theorem serviceAfter_snoc (config : WebpageService) (runs : List WebRun)
    (run : WebRun) :
    serviceAfter mergeState config (runs ++ [run]) =
      (runOnce mergeState (serviceAfter mergeState config runs)
        run).2.service := by
  unfold serviceAfter
  rw [List.foldl_append]
  rfl

theorem service_of_start {config : WebpageService} {runs : List WebRun}
    (h : (serviceAfter mergeState config runs).initPackagesComponent =
      config.initPackagesComponent) :
    serviceAfter mergeState config runs = config := by
  rcases @others_of_runs mergeState config runs with ⟨hstore, hurl⟩
  cases hafter : serviceAfter mergeState config runs with
  | mk components stores url =>
      rw [hafter] at h hstore hurl
      rw [show components = config.initPackagesComponent from h,
        show stores = config.initPackagesStore from hstore,
        show url = config.siteRootUrl from hurl]

end After

/-- The runs do not depend on each other exactly when none but the last one
leaks. -/
theorem independent_iff (mergeState : Container -> List (Text × Node) ->
    Except Thrown Container) (config : WebpageService) (runs : List WebRun) :
    Independent mergeState config runs <->
      forall run, run ∈ runs.dropLast -> ¬Leaks mergeState config run := by
  constructor
  · intro h run hrun hleaks
    rcases mem_dropLast_iff.mp hrun with ⟨before, next, after, hruns⟩
    have hstart := service_of_start (h before run (next :: after) hruns).left
    have hsplit : runs = (before ++ [run]) ++ next :: after := by
      rw [hruns, List.append_assoc]
      rfl
    have hnext := (h (before ++ [run]) next after hsplit).left
    rw [serviceAfter_snoc, hstart,
      (service_of_run config run).left hleaks.right] at hnext
    exact hleaks.left (List.append_right_eq_self.mp hnext)
  · intro h before run after hruns
    have hbefore : forall other, other ∈ before ->
        ¬Leaks mergeState config other := by
      intro other hother
      apply h
      rw [hruns, List.dropLast_append_of_ne_nil (List.cons_ne_nil _ _)]
      exact List.mem_append_left _ hother
    rw [service_of_none_leaks hbefore]
    exact ⟨rfl, rfl, rfl⟩

/-! ## A run that leaks -/

def homeView : View where
  name := "home".toList
  path := "/".toList
  component := "Home".toList
  file := "/src/views/Home.vue".toList
  title := []
  summary := []
  instruction := []

def homePlan : ComponentPlan where
  file := "/src/components/Home.vue".toList
  endpoints := []
  summary := []
  instruction := []
  others := []

def homeRun : WebRun where
  callgentId := []
  host := some "/api".toList
  requirement := []
  endpoints := []
  views := .ok [homeView]
  plans := fun _ => .ok [("Home".toList, homePlan)]
  components := fun _ => .ok ⟨[], [], [], none⟩
  stores := fun _ => .ok ⟨[], []⟩
  pages := fun _ => .ok ⟨[], []⟩

def homeService : WebpageService where
  initPackagesComponent := ["vue@3.4".toList]
  initPackagesStore := ["pinia@2.1".toList]
  siteRootUrl := []

theorem inOrder_home {v : Type} (x : v) :
    inOrder [("Home".toList, x)] = [("Home".toList, x)] := by
  have hindex : arrayIndex "Home".toList = none := by decide
  have hnames : ([("Home".toList, x)].filter fun e =>
      (arrayIndex e.1).isSome) = [] := by
    rw [List.filter_cons, hindex]
    rfl
  have hothers : ([("Home".toList, x)].filter fun e =>
      (arrayIndex e.1).isNone) = [("Home".toList, x)] := by
    rw [List.filter_cons, hindex]
    rfl
  unfold inOrder
  rw [hnames, hothers, List.mergeSort_nil, List.nil_append]

theorem shares_home : Shares (fun target _ => .ok target) homeRun := by
  have hviewComps : componentsOfViews
      [("Home".toList, Component.ofPlan homeView homePlan)] =
        .ok [("home".toList, ["Home".toList])] := by
    unfold componentsOfViews
    rw [inOrder_home]
    rfl
  refine ⟨"/api".toList, [homeView],
    [("Home".toList, .ofPlan homeView homePlan)], _, [], rfl, rfl, rfl,
    hviewComps, ?_, ?_, ?_⟩
  · intro entry hentry
    rw [List.mem_singleton.mp hentry]
    exact ⟨⟨[], rfl⟩, _, rfl⟩
  · rw [inOrder_home]
    rfl
  · intro i _ answer hanswer
    cases hanswer
    rfl

theorem not_independent_home :
    ¬Independent (fun target _ => .ok target) homeService
      [homeRun, homeRun] := by
  intro h
  have hnext := (h [homeRun] homeRun [] rfl).left
  have hafter : serviceAfter (fun target _ => .ok target) homeService
      [homeRun] = homeService.push :=
    (service_of_run homeService homeRun).left shares_home
  rw [hafter] at hnext
  exact absurd hnext (by decide)

end Web
end CallgentApi
