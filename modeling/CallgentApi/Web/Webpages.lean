import CallgentApi.Lib.Effect
import CallgentApi.Agents.ArgHints
import CallgentApi.Web.DeepMerge

/-!
# Webpages

The webpages of a callgent are generated in steps, each of which asks for code
with the packages that are used so far.  An instance of the service keeps the
configured lists of packages, and a run works on the list itself until it makes
one of its own.
-/

namespace CallgentApi
namespace Web

open Js Event Agents Effect

/-! ## What is asked and answered -/

structure View where
  name : Text
  path : Text
  component : Text
  file : Text
  title : Text
  summary : Text
  instruction : Text

structure ComponentPlan where
  file : Text
  endpoints : List Text
  summary : Text
  instruction : Text
  /-- The fields that are answered besides, in their order. -/
  others : List (Text × Json)

structure Component where
  plan : ComponentPlan
  /-- The names of views, unless a plan has other values there. -/
  inViews : Json
  spec : Value

/-- The parameters of an endpoint, and the schemas of its request body by their
media types. -/
structure WebParams where
  parameters : Option (List Text)
  content : Option (List (Text × Value))

structure WebEndpoint where
  name : Text
  summary : Value
  description : Value
  params : Option WebParams
  responses : Value

/-- A store that a component imports; what is empty is missing. -/
structure ImportedStore where
  file : Text
  state : Option (List (Text × Json))
  actions : List Text
  getters : List Json

structure Store where
  file : Text
  state : Container
  actions : List Text
  getters : List Json
  endpoints : List Text

/-- A view that a component is in, with the names of its components. -/
structure RelatedView where
  name : Json
  view : View
  components : List Text

structure ComponentAnswer where
  code : Text
  packages : List Text
  importedStores : List ImportedStore
  spec : Value

structure CodeAnswer where
  code : Text
  packages : List Text

inductive Prompt where
  | route (requirement : Text)
  | components (view : View) (otherViews : List View)
      (components : List (Text × Component))
      (endpoints : List (WebEndpoint × List Value)) (packages : List Text)
  | component (name : Text) (component : Component)
      (endpoints : List WebEndpoint)
      (relatedComponents : List (Text × Component))
      (relatedViews : List RelatedView) (otherViews : List View)
      (stores : List Store) (packages : List Text)
  | store (store : Store) (endpoints : List WebEndpoint) (apiBaseUrl : Text)
      (packages : List Text)
  | view (view : View) (otherViews : List View)
      (components : List (Text × Component)) (packages : List Text)

/-- What a run gets: the request, and the answers in the order of asking. -/
structure WebRun where
  callgentId : Text
  host : Option Text
  requirement : Text
  endpoints : List WebEndpoint
  views : Except Thrown (List View)
  plans : Nat -> Except Thrown (List (Text × ComponentPlan))
  components : Nat -> Except Thrown ComponentAnswer
  stores : Nat -> Except Thrown CodeAnswer
  pages : Nat -> Except Thrown CodeAnswer

/-! ## The service and its lists -/

structure WebpageService where
  initPackagesComponent : List Text
  initPackagesStore : List Text
  siteRootUrl : Text

structure WebWorld where
  service : WebpageService
  prompts : List Prompt

abbrev WebAction (a : Type) := Effect WebWorld Thrown a

/-- `packages` of a run: the list of the service itself, or one of its own. -/
inductive Packages where
  | initial
  | own (list : List Text)

def Packages.list (service : WebpageService) : Packages -> List Text
  | .initial => service.initPackagesComponent
  | .own list => list

/-- `[...new Set(list)]`. -/
def distinct {a : Type} (same : a -> a -> Bool) (list : List a) : List a :=
  list.foldl (fun kept x =>
    if kept.any fun other => same other x then kept else kept ++ [x]) []

def union {a : Type} (same : a -> a -> Bool) (list others : List a) : List a :=
  if others.isEmpty then list else distinct same (list ++ others)

/-- Other packages are merged into a new list. -/
def Packages.merge (packages : Packages) (service : WebpageService)
    (others : List Text) : Packages :=
  if others.isEmpty then packages
  else .own (distinct (· == ·) (packages.list service ++ others))

/-- The packages of the stores are appended to the list of the service. -/
def WebpageService.push (service : WebpageService) : WebpageService :=
  { service with initPackagesComponent :=
      service.initPackagesComponent ++ service.initPackagesStore }

/-- `packages.push(...this.initPackagesStore)`. -/
def pushPackages : Packages -> WebAction Packages
  | .initial => do
      modify fun world => { world with service := world.service.push }
      return .initial
  | .own list => do
      let world ← get
      return .own (list ++ world.service.initPackagesStore)

/-- A question to the agents, with the answer it gets. -/
def askAgent {a : Type} (prompt : WebpageService -> Prompt)
    (answer : Except Thrown a) : WebAction a := do
  modify fun world =>
    { world with prompts := world.prompts ++ [prompt world.service] }
  ofResult answer

theorem exec_askAgent {a : Type} (prompt : WebpageService -> Prompt)
    (answer : Except Thrown a) (world : WebWorld) :
    exec (askAgent prompt answer) world =
      (answer, { world with
        prompts := world.prompts ++ [prompt world.service] }) := by
  unfold askAgent
  rw [exec_bind_of_ok (exec_modify _ world)]
  rfl

/-! ## Components of the views -/

/-- The parameters that are shown of an endpoint. -/
def shownParams (e : WebEndpoint) :
    Except Thrown (WebEndpoint × List Value) :=
  match e.params with
  | none => .error (.readUndefined "requestBody".toList)
  | some params =>
      let names : List Value :=
        (params.parameters.getD []).map fun name => some (.str name)
      match params.content with
      | none => .ok (e, names)
      | some content =>
          match valuesOf content with
          | [] => .error (.readUndefined "schema".toList)
          | schema :: _ => .ok (e, names ++ [schema])

/-- `{ ...comp, inViews: [view.name] }`. -/
def Component.ofPlan (view : View) (plan : ComponentPlan) : Component where
  plan := plan
  inViews := .arr [.str view.name]
  spec := plan.others.lookup "spec".toList

/-- `Object.assign(cp, comp)`. -/
def Component.assign (cp : Component) (plan : ComponentPlan) : Component where
  plan :=
    { plan with others := plan.others.foldl (fun others entry =>
        assignEntry others entry.1 entry.2) cp.plan.others }
  inViews := (plan.others.lookup "inViews".toList).getD cp.inViews
  spec := (plan.others.lookup "spec".toList).or cp.spec

def addComponent (view : View) (components : List (Text × Component))
    (entry : Text × ComponentPlan) :
    Except Thrown (List (Text × Component)) :=
  match components.lookup entry.1 with
  | some cp => do
      let inViews ← elementsOf (some cp.inViews) "push"
      let cp := { cp with inViews := .arr (inViews ++ [Json.str view.name]) }
      return setEntry components entry.1 (cp.assign entry.2)
  | none =>
      if isInherited entry.1 then .error (.readUndefined "push".toList)
      else .ok (setEntry components entry.1 (.ofPlan view entry.2))

/-- The components of the views; the views are asked for one by one. -/
def planViews (run : WebRun) (views : List View)
    (endpoints : List (WebEndpoint × List Value)) :
    List (View × Nat) -> List (Text × Component) ->
      WebAction (List (Text × Component))
  | [], components => return components
  | (view, i) :: rest, components => do
      let cps ← askAgent (fun service =>
        .components view (views.filter fun v => v.name != view.name) components
          endpoints service.initPackagesComponent) (run.plans i)
      let components ← ofResult (cps.foldlM (addComponent view) components)
      planViews run views endpoints rest components

def planComponents (run : WebRun) (views : List View) :
    WebAction (List (Text × Component)) := do
  let endpoints ← ofResult (run.endpoints.mapM shownParams)
  planViews run views endpoints views.zipIdx []

def addToView (name : Text) (viewComps : List (Text × List Text))
    (view : Json) : Except Thrown (List (Text × List Text)) :=
  match viewComps.lookup view.display with
  | some comps => .ok (setEntry viewComps view.display (comps ++ [name]))
  | none =>
      if isInherited view.display then
        .error (.typeError "comps.push is not a function".toList)
      else .ok (setEntry viewComps view.display [name])

def componentsOfViews (components : List (Text × Component)) :
    Except Thrown (List (Text × List Text)) :=
  (inOrder components).foldlM (fun viewComps entry => do
    let inViews ← elementsOf (some entry.2.inViews) "forEach"
    inViews.foldlM (addToView entry.1) viewComps) []

/-- `viewMap[name]`: the last view with the name. -/
def viewOf (views : List View) (name : Text) : Except Thrown View :=
  match (views.filter fun v => v.name == name).getLast? with
  | some view => .ok view
  | none => .error (.readUndefined "path".toList)

def endpointOf (run : WebRun) (epName : Text) : Except Thrown WebEndpoint :=
  match run.endpoints.find? fun ep => ep.name == epName with
  | some ep => .ok ep
  | none => .error (.readUndefined "name".toList)

/-! ## Code of the components -/

section Code

variable (mergeState : Container -> List (Text × Node) ->
  Except Thrown Container)

/-- An imported store is merged into the one of its file, by `_deepMerge`. -/
def importStore (comp : Component) (stores : List Store)
    (store : ImportedStore) : Except Thrown (List Store) :=
  match stores with
  | [] =>
      .ok [{
        file := store.file
        state := ⟨none, Node.ofFields (store.state.getD [])⟩
        actions := store.actions
        getters := store.getters
        endpoints := comp.plan.endpoints }]
  | s :: rest =>
      if s.file = store.file then do
        let state ← match store.state with
          | some fields => mergeState s.state (Node.ofFields fields)
          | none => .ok s.state
        return {
          file := s.file
          state := state
          actions := union (· == ·) s.actions store.actions
          getters := union (fun v w => Json.sameValue (some v) (some w))
            s.getters store.getters
          endpoints := union (· == ·) s.endpoints comp.plan.endpoints } :: rest
      else do
        let others ← importStore comp rest store
        return s :: others

/-- What is made while the code of the components is generated. -/
structure Generated where
  components : List (Text × Component)
  stores : List Store
  packages : Packages
  files : List (Text × Text)

/-- The components that are in the related views, other than the one itself. -/
def relatedComponents (components : List (Text × Component)) (compName : Text)
    (relatedViews : List RelatedView) : List (Text × Component) :=
  let names := (distinct (· == ·)
    (relatedViews.flatMap RelatedView.components)).filter
      fun c => c != compName
  names.filterMap fun c =>
    (components.lookup c).map fun component => (c, component)

/-- The views of a component, with the names of their components. -/
def relatedViewsOf (views : List View) (viewComps : List (Text × List Text))
    (comp : Component) : Except Thrown (List RelatedView) := do
  let inViews ← elementsOf (some comp.inViews) "map"
  inViews.mapM fun name => do
    let view ← viewOf views name.display
    return ⟨name, view, (viewComps.lookup name.display).getD []⟩

/-- The packages and stores of an answer are merged in. -/
def Generated.add (made : Generated) (service : WebpageService)
    (compName : Text) (comp : Component) (answer : ComponentAnswer) :
    Except Thrown Generated := do
  let stores ← answer.importedStores.foldlM (importStore mergeState comp)
    made.stores
  return {
    components :=
      setEntry made.components compName { comp with spec := answer.spec }
    stores := stores
    packages := made.packages.merge service answer.packages
    files := assignEntry made.files comp.plan.file answer.code }

def generateComponents (run : WebRun) (views : List View)
    (viewComps : List (Text × List Text)) :
    List ((Text × Component) × Nat) -> Generated -> WebAction Generated
  | [], made => return made
  | ((compName, comp), i) :: rest, made => do
      let endpoints ← ofResult (comp.plan.endpoints.mapM (endpointOf run))
      let relatedViews ← ofResult (relatedViewsOf views viewComps comp)
      let otherViews := views.filter fun v =>
        !relatedViews.any fun v0 =>
          Json.sameValue (some v0.name) (some (.str v.name))
      let answer ← askAgent (fun service =>
        .component compName comp endpoints
          (relatedComponents made.components compName relatedViews)
          relatedViews otherViews made.stores (made.packages.list service))
        (run.components i)
      let world ← get
      let made ← ofResult
        (made.add mergeState world.service compName comp answer)
      generateComponents run views viewComps rest made

/-- The code of the components that are planned for the views. -/
def generateFromViews (run : WebRun) (views : List View) :
    WebAction (Generated × List (Text × List Text)) := do
  let components ← planComponents run views
  let viewComps ← ofResult (componentsOfViews components)
  let made ← generateComponents mergeState run views viewComps
    (inOrder components).zipIdx ⟨components, [], .initial, []⟩
  return (made, viewComps)

/-! ## Code of the stores and the views -/

def generateStores (run : WebRun) (apiBaseUrl : Text) :
    List (Store × Nat) -> Packages -> List (Text × Text) ->
      WebAction (Packages × List (Text × Text))
  | [], packages, files => return (packages, files)
  | (store, i) :: rest, packages, files => do
      let endpoints ← ofResult (store.endpoints.mapM (endpointOf run))
      let answer ← askAgent (fun service =>
        .store store endpoints apiBaseUrl (packages.list service))
        (run.stores i)
      let world ← get
      generateStores run apiBaseUrl rest
        (packages.merge world.service answer.packages)
        (assignEntry files store.file answer.code)

def generateViews (run : WebRun) (views : List View)
    (components : List (Text × Component)) :
    List ((Text × List Text) × Nat) -> Packages -> List (Text × Text) ->
      WebAction (Packages × List (Text × Text))
  | [], packages, files => return (packages, files)
  | ((name, compNames), i) :: rest, packages, files => do
      let view ← ofResult (viewOf views name)
      let comps := compNames.filterMap fun c =>
        (components.lookup c).map fun component => (c, component)
      let answer ← askAgent (fun service =>
        .view view (views.filter fun v => v.name != name) comps
          (packages.list service)) (run.pages i)
      let world ← get
      generateViews run views components rest
        (packages.merge world.service answer.packages)
        (assignEntry files view.file answer.code)

/-- `data.context.resp.data`. -/
structure WebResponse where
  packages : List Text
  files : List (Text × Text)
  routes : List (Text × Text × Text)

/-- The code of the stores and the views, and the response. -/
def generateRest (run : WebRun) (apiBaseUrl : Text) (views : List View)
    (made : Generated) (viewComps : List (Text × List Text))
    (packages : Packages) : WebAction WebResponse := do
  let (packages, files) ← generateStores run apiBaseUrl made.stores.zipIdx
    packages made.files
  let (packages, files) ← generateViews run views made.components
    (inOrder viewComps).zipIdx packages files
  let world ← get
  return {
    packages := packages.list world.service
    files := files
    routes := views.map fun v => (v.name, v.path, v.component) }

/-- `genWebpages`. -/
def genWebpages (run : WebRun) : WebAction WebResponse := do
  let world ← get
  match run.host with
  | none =>
      throw (.plain
        ("There must be a restAPI client entry as backend API for ".toList ++
          ("callgent#".toList ++ run.callgentId)))
  | some host =>
      let apiBaseUrl := world.service.siteRootUrl ++ host
      let views ← askAgent (fun _ => .route run.requirement) run.views
      let (made, viewComps) ← generateFromViews mergeState run views
      let packages ← pushPackages made.packages
      generateRest run apiBaseUrl views made viewComps packages

end Code

end Web
end CallgentApi
