import TypedIR.Arena.Basic
import TypedIR.Context.Attributes

/-!
Contract: functions of an arena, their names, blocks and attachments, changed in place.

Owns:
- declaration and deletion, which keep the bodies, the order of the functions and
  their names in step;
- renaming, which changes the look-up of names before it changes the name;
- blocks and attachments, each a look-up and a write.

Nothing that comes behind the first write of an operation is checked anew, but
several writes look their entry up again.
-/

namespace TypedIR.Arena

/-! ### Declaration and names -/

/-- The parameters of a function, in order. -/
def parametersOf (function : FunctionId) (types : List TypeId) : List Value :=
  types.mapIdx fun position type => ⟨type, .parameter function position, ""⟩

/-- Stores a function with its parameters, unless its name is taken. -/
def Contents.declare (name : String) (signature : TypeId) (parameters : List TypeId)
    (convention : UInt32) : InPlace Contents FunctionId := do
  let taken ← .look fun home => (home.names.get? name).isSome
  if name ≠ "" ∧ taken then .refuse (.duplicateName name)
  else do
    let self ← .update fun home => home.pushValue ⟨signature, .function, name⟩
    let function : FunctionId := ⟨self.context, self.index⟩
    let values ← .update fun home => home.pushValues (parametersOf function parameters)
    .write fun home => { home with
      bodies := home.bodies.insert function.index (.declared signature values convention) }
    .write fun home => { home with functions := home.functions ++ [function] }
    .write fun home => { home with
      names := if name = "" then home.names else home.names.insert name function }
    return function

def declare (context : ContextId) (name : String) (signature : TypeId) :
    InPlace Arena FunctionId := do
  match ← .read fun arena => arena.typeIn context signature with
  | .function _ parameters _ => do
      let convention ← .look fun arena => arena.settings.convention.code
      within context (Contents.declare name signature parameters convention)
  | _ => .read fun arena => throw (.mismatch .signature (arena.typeExpectation signature))

/-- Records a function under another name, unless that one is taken. -/
def Contents.renameFunction (function : FunctionId) (old name : String) :
    InPlace Contents Unit := do
  let holder ← .look fun home => home.names.get? name
  if name ≠ "" ∧ holder.any fun holder => holder ≠ function then .refuse (.duplicateName name)
  else do
    .write fun home => { home with
      names := if home.names.get? old = some function then home.names.erase old else home.names }
    .write fun home => { home with
      names := if name = "" then home.names else home.names.insert name function }

/-- The name itself is written last, behind a look-up that comes after the writes to the names. -/
def rename (value : ValueId) (name : String) : InPlace Arena Unit := do
  let entry ← .read fun arena => arena.value value
  if entry.kind = .function then do
    within value.context
      (Contents.renameFunction ⟨value.context, value.index⟩ entry.name name)
    alterValue value fun entry => { entry with name := name }
  else alterValue value fun entry => { entry with name := name }

/-- The function that stands under a name in the names of a live context. -/
def functionNamed (arena : Arena) (context : ContextId) (name : String) :
    Except Fault (Option FunctionId) := do
  let home ← arena.contents context
  return home.names.get? name

/-! ### Blocks and attachments -/

/-- Appends a block under a name that is free in the function. -/
def appendNamed (function : FunctionId) (name : String) : InPlace Arena BlockId := do
  let block ← within function.context <| .update fun home => home.pushBlock ⟨function, name, []⟩
  alterBody function fun body => { body with blocks := body.blocks ++ [block] }.edited
  return block

def appendBlock (function : FunctionId) (name : String) : InPlace Arena BlockId := do
  let body ← .read fun arena => arena.body function
  let taken ← .look fun arena =>
    body.blocks.filterMap fun block => ((arena.block block).toOption).map (·.name)
  appendNamed function (Label.ofBlock taken name)

def setConvention (accepts : UInt32 → Bool) (engine : String) (function : FunctionId)
    (code : UInt32) : InPlace Arena Unit := do
  let _ ← .read fun arena => arena.body function
  if accepts code then alterBody function fun body => { body with convention := code }.edited
  else .refuse (.unsupportedConvention code engine)

def setPersonality (function personality : FunctionId) : InPlace Arena Unit :=
  if personality.context ≠ function.context then
    .refuse (.foreignValue (.function personality) function.context)
  else do
    let _ ← .read fun arena => arena.body personality
    alterBody function fun body => { body with personality := some personality }.edited

def clearPersonality (function : FunctionId) : InPlace Arena Unit :=
  alterBody function fun body => { body with personality := none }.edited

def setCollector (function : FunctionId) (strategy : String) : InPlace Arena Unit :=
  alterBody function fun body =>
    { body with collector := if strategy = "" then none else some strategy }.edited

/-- A parameter position lies below the number of parameters. -/
def requireSite (arena : Arena) (function : FunctionId) (site : Site) : Except Fault Unit := do
  let body ← arena.body function
  match site with
  | .parameter position =>
      if position < body.parameters.length then return ()
      else throw (.positionOutOfRange position body.parameters.length)
  | _ => return ()

def addAttribute (function : FunctionId) (site : Site) (value : Attribute) :
    InPlace Arena Unit := do
  .read fun arena => arena.requireSite function site
  alterBody function fun body =>
    { body with attributes := body.attributes.insert site value }.edited

/-- Where there is no such attribute, the body stays as it is, its recorded verification
included. -/
def Body.withoutAttribute (site : Site) (key : AttributeKey) (body : Body) : Body :=
  if (body.attributes.get? site key).isSome then
    { body with attributes := body.attributes.erase site key }.edited
  else body

def removeAttribute (function : FunctionId) (site : Site) (key : AttributeKey) :
    InPlace Arena Unit := do
  .read fun arena => arena.requireSite function site
  alterBody function (Body.withoutAttribute site key)

/-- The function and the position of a parameter. -/
def parameterPlace (arena : Arena) (value : ValueId) : Except Fault (FunctionId × Nat) := do
  let entry ← arena.value value
  match entry.kind with
  | .parameter function position => return (function, position)
  | _ => throw (.notParameter value)

def setAlignment (value : ValueId) (align : UInt32) : InPlace Arena Unit := do
  let (function, position) ← .read fun arena => arena.parameterPlace value
  if isPowerOfTwo align.toNat then
    addAttribute function (.parameter position) (.enumerated .alignment align.toUInt64)
  else .refuse (.alignment align)

/-! ### Deletion -/

/-- Takes a body out of its store. -/
def Contents.takeBody (function : FunctionId) : InPlace Contents Body := fun home =>
  match home.bodies.get? function.index with
  | none => (.error (.released (.function function)), home)
  | some body => (.ok body, { home with bodies := home.bodies.erase function.index })

/-- Takes the body out, releases what it lists, and removes the function from the order of the
functions and from the names. All other functions forget it. -/
def Contents.deleteFunction (function : FunctionId) (name : String) : InPlace Contents Unit := do
  let body ← takeBody function
  .write fun home => body.blocks.foldl releaseBlock home
  .write fun home => body.parameters.foldl releaseValue home
  .write fun home => home.releaseValue function.toValue
  .write fun home => { home with
    functions := home.functions.filter fun other => other ≠ function }
  .write fun home => { home with
    names := if home.names.get? name = some function then home.names.erase name else home.names }
  .write fun home => { home with bodies := home.bodies.mapValues (Body.forget function) }

def deleteFunction (function : FunctionId) : InPlace Arena Unit := do
  let name ← .read fun arena => arena.functionName function
  within function.context (Contents.deleteFunction function name)

end TypedIR.Arena
