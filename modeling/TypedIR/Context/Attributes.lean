import TypedIR.Context.Functions

/-!
Contract: the attributes of the functions of a context.

Owns:
- the check of a site: a parameter position lies below the parameter count;
- adding, which replaces the attribute of the same site and key, and removal;
- the alignment of a parameter, an attribute at the parameter's own position.
-/

namespace TypedIR

def isPowerOfTwo (number : Nat) : Bool := Nat.pow 2 number.log2 == number

namespace Context

def requireSite (entry : FunctionEntry) (site : Site) : Except Fault Unit :=
  match site with
  | .parameter position =>
      if position < entry.parameters.length then .ok ()
      else .error (.positionOutOfRange position entry.parameters.length)
  | _ => .ok ()

/-- A live function that has the site. -/
def resolveSite (context : Context) (function : FunctionId) (site : Site) :
    Except Fault FunctionEntry := do
  let entry ← context.resolveFunction function
  requireSite entry site
  return entry

def addAttribute (context : Context) (function : FunctionId) (site : Site)
    (value : Attribute) : Except Fault (Unit × Context) := do
  let _ ← context.resolveSite function site
  context.editFunction function fun entry =>
    { entry with attributes := entry.attributes.insert site value }

/-- Removes an attribute. Where there is none, the function stays as it is, its recorded
verification included. -/
def removeAttribute (context : Context) (function : FunctionId) (site : Site)
    (key : AttributeKey) : Except Fault (Unit × Context) := do
  let entry ← context.resolveSite function site
  if (entry.attributes.get? site key).isSome then
    context.editFunction function fun entry =>
      { entry with attributes := entry.attributes.erase site key }
  else return ((), context)

def attributesAt (context : Context) (function : FunctionId) (site : Site) :
    Except Fault (List Attribute) := do
  let entry ← context.resolveSite function site
  return entry.attributes.listAt site

def attribute? (context : Context) (function : FunctionId) (site : Site)
    (key : AttributeKey) : Except Fault (Option Attribute) := do
  let entry ← context.resolveSite function site
  return entry.attributes.get? site key

/-- The function and the position of a parameter. -/
def parameterPlace (context : Context) (value : ValueId) : Except Fault (FunctionId × Nat) := do
  let entry ← context.resolveValue value
  match entry.kind with
  | .parameter function position => return (context.functionId function, position)
  | _ => throw (.notParameter value)

def setAlignment (context : Context) (value : ValueId) (align : UInt32) :
    Except Fault (Unit × Context) := do
  let (function, position) ← context.parameterPlace value
  if isPowerOfTwo align.toNat then
    context.addAttribute function (.parameter position) (.enumerated .alignment align.toUInt64)
  else throw (.alignment align)

/-- The alignment attribute of a parameter, if its number fits 32 bits. -/
def alignment? (context : Context) (value : ValueId) : Except Fault (Option UInt32) := do
  let (function, position) ← context.parameterPlace value
  match ← context.attribute? function (.parameter position) (.enumerated .alignment) with
  | some (.enumerated _ number) =>
      return if number.toNat < UInt32.size then some number.toUInt32 else none
  | _ => return none

end Context

end TypedIR
