import Blueprint.Build.Draft
import Blueprint.Resolved.View

/-!
# Views of a workspace

A declared view is bound to the elements that it refers to. A view whose scope cannot be resolved,
or whose key is taken, is left out.
-/

namespace Blueprint.Build

open Resolved (View ViewKind Interaction)

/-! ## Expressions -/

/-- The pieces of a text between arrows `->`. -/
def splitArrows : List Char → List (List Char)
  | [] => [[]]
  | '-' :: '>' :: rest => [] :: splitArrows rest
  | c :: rest =>
    match splitArrows rest with
    | [] => [[c]]
    | piece :: pieces => (c :: piece) :: pieces

/-- Whether a text has an arrow. -/
def hasArrow (text : List Char) : Bool := (splitArrows text).length > 1

/-- Whether a selection is an expression and no reference. -/
def isExpression (text : List Char) : Bool := hasArrow text || text.contains '='

/-- The references at the ends of an expression with arrows. -/
def expressionEnds (text : String) : List String :=
  if hasArrow text.toList then
    (splitArrows text.toList).filterMap fun piece =>
      let name := Text.trim piece
      if name.isEmpty || name == ['*'] || isExpression name then none
      else some (String.ofList name)
  else []

/-- Resolves the ends of an expression, only to report those that cannot be resolved. -/
def checkEnds (registry : Registry) (position : Option Position) : List String → Reported Unit
  | [] => pure ()
  | name :: rest => do
    let _ ← registry.resolve name position
    checkEnds registry position rest

/-! ## Selections, animations and interactions -/

/-- Resolves a reference to the identifier of an element. -/
def resolveId (registry : Registry) (position : Option Position) (reference : String) :
    Reported (Option String) := do
  let element? ← registry.resolve reference position
  return element?.map Entry.id

/-- Binds a selection: an expression is kept as it is, and a reference is resolved. -/
def bindSelection (registry : Registry) (selection : Declared.Selection) :
    Reported (Option (String ⊕ String)) := do
  if isExpression selection.expression.toList then
    checkEnds registry selection.position (expressionEnds selection.expression)
    return some (.inl selection.expression)
  else
    let id? ← resolveId registry selection.position selection.expression
    return id?.map .inr

/-- Binds what a view includes. -/
def bindIncludes (registry : Registry) (view : View) :
    List Declared.Selection → Reported View
  | [] => pure view
  | selection :: rest =>
    if selection.expression = "*" then
      bindIncludes registry { view with includesAll := true } rest
    else do
      match ← bindSelection registry selection with
      | some (.inl expression) =>
        bindIncludes registry { view with expressions := view.expressions ++ [expression] } rest
      | some (.inr id) =>
        bindIncludes registry { view with elements := view.elements ++ [id] } rest
      | none => bindIncludes registry view rest

/-- Binds what a view excludes. -/
def bindExcludes (registry : Registry) (view : View) :
    List Declared.Selection → Reported View
  | [] => pure view
  | selection :: rest => do
    match ← bindSelection registry selection with
    | some (.inl expression) =>
      bindExcludes registry
        { view with excludedExpressions := view.excludedExpressions ++ [expression] } rest
    | some (.inr id) =>
      bindExcludes registry { view with excluded := view.excluded ++ [id] } rest
    | none => bindExcludes registry view rest

/-- Binds the steps of an animation. -/
def bindSteps (registry : Registry) (position : Option Position) :
    List (List String) → Reported (List (List String))
  | [] => pure []
  | step :: rest => do
    let ids ← Reported.collect (resolveId registry position) step
    let others ← bindSteps registry position rest
    return ids :: others

/-- Binds animations to one list of steps. -/
def bindAnimations (registry : Registry) :
    List Declared.Animation → Reported (List (List String))
  | [] => pure []
  | animation :: rest => do
    let steps ← bindSteps registry animation.position animation.steps
    let others ← bindAnimations registry rest
    return steps ++ others

/-- Binds interactions and numbers them; those without both ends are left out. -/
def bindInteractions (registry : Registry) (known : List Interaction) :
    List Declared.Relationship → Reported (List Interaction)
  | [] => pure known
  | declared :: rest => do
    let source? ← registry.resolve declared.source declared.position
    let destination? ← registry.resolve declared.destination declared.position
    match source?, destination? with
    | some source, some destination =>
      let interaction : Interaction :=
        { order := known.length + 1, source := source.id, destination := destination.id
          description := declared.description, technology := declared.technology }
      bindInteractions registry (known ++ [interaction]) rest
    | _, _ => bindInteractions registry known rest

/-! ## Views -/

/-- The key of a view that is given none. -/
def defaultKey (kind : ViewKind) (known : List View) : String :=
  kind.label ++ "-" ++ toString (known.length + 1)

/-- Binds what all views have, given the views before. -/
def bindDetails (registry : Registry) (known : List View) (details : Declared.ViewDetails)
    (kind : ViewKind) (scope : Option String) : Reported (Option View) := do
  let key := (given? details.key).getD (defaultKey kind known)
  if key ∈ known.map View.key then
    Reported.report (.build (.duplicateView key)) details.position
    return none
  else
    let view : View :=
      { kind, key, title := details.title, description := details.description, scope
        properties := details.properties
        autoLayout := details.autoLayout.map fun layout =>
          ⟨layout.rankDirection, layout.rankSeparation, layout.nodeSeparation⟩ }
    let view ← bindIncludes registry view details.includes
    let view ← bindExcludes registry view details.excludes
    let animations ← bindAnimations registry details.animations
    return some { view with animations }

/-- Binds a view about an element of a class. -/
def bindScoped (registry : Registry) (known : List View) (details : Declared.ViewDetails)
    (kind : ViewKind) (reference : String) (wanted : ElementClass) :
    Reported (Option View) := do
  match ← registry.resolve reference details.position true wanted with
  | some scope => bindDetails registry known details kind (some scope.id)
  | none => return none

/-- Resolves the scope of a dynamic view, which is a software system or a container. -/
def dynamicScope (registry : Registry) (details : Declared.ViewDetails) (reference : String) :
    Reported (Option Entry) := do
  match ← registry.resolve reference details.position with
  | some scope =>
    if scope.kind = .softwareSystem || scope.kind = .container then return some scope
    else
      Reported.report (.build (.dynamicScope reference)) details.position
      return none
  | none => return none

/-- Resolves a scope that may be everything, `*`. -/
def openScope (resolve : String → Reported (Option Entry)) (reference : String) :
    Reported (Option (Option String)) := do
  if reference = "*" then return some none
  else
    match ← resolve reference with
    | some scope => return some (some scope.id)
    | none => return none

/-- Resolves the scope of a deployment view: a software system, or none if it is about all. -/
def deploymentScope (registry : Registry) (details : Declared.ViewDetails) :
    Option String → Reported (Option (Option String))
  | some reference => do
    let element? ← registry.resolve reference details.position true .softwareSystem
    return element?.map fun entry => some entry.id
  | none => pure (some none)

/-- Binds a view, given the views before. -/
def bindView (registry : Registry) (known : List View) (declared : Declared.View) :
    Reported (Option View) := do
  let details := declared.details
  match declared.sort with
  | .systemLandscape => bindDetails registry known details .systemLandscape none
  | .systemContext system =>
    bindScoped registry known details .systemContext system .softwareSystem
  | .container system => bindScoped registry known details .container system .softwareSystem
  | .component container => bindScoped registry known details .component container .container
  | .dynamic scope steps =>
    match ← openScope (dynamicScope registry details) scope with
    | some scope =>
      match ← bindDetails registry known details .dynamic scope with
      | some view =>
        let interactions ← bindInteractions registry [] steps
        return some { view with interactions }
      | none => return none
    | none => return none
  | .deployment system environment =>
    match ← deploymentScope registry details system with
    | some scope =>
      match ← registry.resolve environment details.position true .deploymentEnvironment with
      | some entry =>
        let view? ← bindDetails registry known details .deployment scope
        return view?.map fun view => { view with environment := some entry.name }
      | none => return none
    | none => return none
  | .filtered base mode tags =>
    let view? ← bindDetails registry known details .filtered none
    return view?.map fun view =>
      { view with baseKey := some base, filterMode := some mode, filterTags := tags }
  | .custom => bindDetails registry known details .custom none
  | .image scope content contentType =>
    match ← openScope (fun reference => registry.resolve reference details.position) scope with
    | some scope =>
      let view? ← bindDetails registry known details .image scope
      return view?.map fun view => { view with content, contentType }
    | none => return none

/-- Binds views one after the other. -/
def bindViews (registry : Registry) (known : List View) :
    List Declared.View → Reported (List View)
  | [] => pure known
  | declared :: rest => do
    let next ← bindView registry known declared
    bindViews registry (known ++ next.toList) rest

/-- Reports the filtered views whose base is not among the keys. -/
def checkBases (keys : List String) : List Declared.View → Reported Unit
  | [] => pure ()
  | declared :: rest => do
    match declared.sort with
    | .filtered base _ _ =>
      if base ∉ keys then
        Reported.report (.build (.unknownBaseView base)) declared.details.position
    | _ => pure ()
    checkBases keys rest

/-- Binds the views of a block. -/
def bindBlock (registry : Registry) (block : Declared.Views) : Reported (List View) := do
  let views ← bindViews registry [] block.views
  checkBases (views.map View.key) block.views
  return views

end Blueprint.Build
