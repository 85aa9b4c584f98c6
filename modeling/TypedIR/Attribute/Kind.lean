/-!
Contract: the attributes that have a kind of their own, and where they may stand.

Owns:
- their native codes, their words in printed code and their tags in data;
- the places of a function that an attribute can be attached to;
- the placement rule of each kind, and which kinds carry a number.
-/

namespace TypedIR

inductive AttributeKind where
  | alwaysInline
  | byVal
  | cold
  | convergent
  | hot
  | inlineHint
  | inReg
  | minSize
  | naked
  | nest
  | noAlias
  | noBuiltin
  | noCapture
  | noInline
  | nonNull
  | noRecurse
  | noReturn
  | noUnwind
  | optimizeForSize
  | optimizeNone
  | readNone
  | readOnly
  | returned
  | signExt
  | structRet
  | uwTable
  | writeOnly
  | zeroExt
  | alignment
  | dereferenceable
  | stackAlignment
  | noUndef
deriving DecidableEq, Repr

/-- A place of a function that attributes are attached to. -/
inductive Site where
  | ret
  | parameter (position : Nat)
  | function
deriving DecidableEq, Repr

def Site.text : Site → String
  | .ret => "return"
  | .parameter position => "param " ++ toString position
  | .function => "function"

/-- The sites at which a kind of attribute means something. -/
inductive Placement where
  | function
  | parameter
  | value
  | functionOrParameter
deriving DecidableEq, Repr

namespace Placement

def tag : Placement → String
  | .function => "function"
  | .parameter => "parameter"
  | .value => "value"
  | .functionOrParameter => "function_or_parameter"

/-- A value is a result or a parameter. -/
def admits : Placement → Site → Bool
  | .function, .function => true
  | .parameter, .parameter _ => true
  | .value, .ret => true
  | .value, .parameter _ => true
  | .functionOrParameter, .function => true
  | .functionOrParameter, .parameter _ => true
  | _, _ => false

end Placement

namespace AttributeKind

/-- Every kind, by increasing code. -/
def all : List AttributeKind :=
  [.alwaysInline, .byVal, .cold, .convergent, .hot, .inlineHint, .inReg, .minSize, .naked,
    .nest, .noAlias, .noBuiltin, .noCapture, .noInline, .nonNull, .noRecurse, .noReturn,
    .noUnwind, .optimizeForSize, .optimizeNone, .readNone, .readOnly, .returned, .signExt,
    .structRet, .uwTable, .writeOnly, .zeroExt, .alignment, .dereferenceable, .stackAlignment,
    .noUndef]

/-- The largest native code of an attribute kind. -/
def maxCode : UInt32 := 127

def code : AttributeKind → UInt32
  | .alwaysInline => 1
  | .byVal => 2
  | .cold => 3
  | .convergent => 4
  | .hot => 5
  | .inlineHint => 6
  | .inReg => 7
  | .minSize => 8
  | .naked => 9
  | .nest => 10
  | .noAlias => 11
  | .noBuiltin => 12
  | .noCapture => 13
  | .noInline => 14
  | .nonNull => 15
  | .noRecurse => 16
  | .noReturn => 17
  | .noUnwind => 18
  | .optimizeForSize => 19
  | .optimizeNone => 20
  | .readNone => 21
  | .readOnly => 22
  | .returned => 23
  | .signExt => 24
  | .structRet => 25
  | .uwTable => 26
  | .writeOnly => 27
  | .zeroExt => 28
  | .alignment => 29
  | .dereferenceable => 30
  | .stackAlignment => 31
  | .noUndef => 32

/-- The word in printed code. -/
def word : AttributeKind → String
  | .alwaysInline => "alwaysinline"
  | .byVal => "byval"
  | .cold => "cold"
  | .convergent => "convergent"
  | .hot => "hot"
  | .inlineHint => "inlinehint"
  | .inReg => "inreg"
  | .minSize => "minsize"
  | .naked => "naked"
  | .nest => "nest"
  | .noAlias => "noalias"
  | .noBuiltin => "nobuiltin"
  | .noCapture => "nocapture"
  | .noInline => "noinline"
  | .nonNull => "nonnull"
  | .noRecurse => "norecurse"
  | .noReturn => "noreturn"
  | .noUnwind => "nounwind"
  | .optimizeForSize => "optsize"
  | .optimizeNone => "optnone"
  | .readNone => "readnone"
  | .readOnly => "readonly"
  | .returned => "returned"
  | .signExt => "signext"
  | .structRet => "sret"
  | .uwTable => "uwtable"
  | .writeOnly => "writeonly"
  | .zeroExt => "zeroext"
  | .alignment => "align"
  | .dereferenceable => "dereferenceable"
  | .stackAlignment => "alignstack"
  | .noUndef => "noundef"

/-- The name in descriptions. -/
def tag : AttributeKind → String
  | .alwaysInline => "always_inline"
  | .byVal => "by_val"
  | .cold => "cold"
  | .convergent => "convergent"
  | .hot => "hot"
  | .inlineHint => "inline_hint"
  | .inReg => "in_reg"
  | .minSize => "min_size"
  | .naked => "naked"
  | .nest => "nest"
  | .noAlias => "no_alias"
  | .noBuiltin => "no_builtin"
  | .noCapture => "no_capture"
  | .noInline => "no_inline"
  | .nonNull => "non_null"
  | .noRecurse => "no_recurse"
  | .noReturn => "no_return"
  | .noUnwind => "no_unwind"
  | .optimizeForSize => "optimize_for_size"
  | .optimizeNone => "optimize_none"
  | .readNone => "read_none"
  | .readOnly => "read_only"
  | .returned => "returned"
  | .signExt => "sign_ext"
  | .structRet => "struct_ret"
  | .uwTable => "uw_table"
  | .writeOnly => "write_only"
  | .zeroExt => "zero_ext"
  | .alignment => "alignment"
  | .dereferenceable => "dereferenceable"
  | .stackAlignment => "stack_alignment"
  | .noUndef => "no_undef"

def ofCode? (code : UInt32) : Option AttributeKind :=
  all.find? fun kind => kind.code == code

def ofTag? (tag : String) : Option AttributeKind :=
  all.find? fun kind => kind.tag == tag

def placement : AttributeKind → Placement
  | .alwaysInline | .cold | .convergent | .hot | .inlineHint | .minSize | .naked | .noBuiltin
  | .noInline | .noRecurse | .noReturn | .noUnwind | .optimizeForSize | .optimizeNone
  | .uwTable | .stackAlignment => .function
  | .byVal | .nest | .noCapture | .returned | .structRet => .parameter
  | .inReg | .noAlias | .nonNull | .signExt | .zeroExt | .alignment | .dereferenceable
  | .noUndef => .value
  | .readNone | .readOnly | .writeOnly => .functionOrParameter

def isValidAt (kind : AttributeKind) (site : Site) : Bool :=
  kind.placement.admits site

/-- The kinds that are printed with their number. -/
def takesValue : AttributeKind → Bool
  | .alignment | .dereferenceable | .stackAlignment => true
  | _ => false

/-- The kinds whose number has to be a power of two. -/
def isAlignment : AttributeKind → Bool
  | .alignment | .stackAlignment => true
  | _ => false

theorem mem_all (kind : AttributeKind) : kind ∈ all := by
  cases kind <;> decide

theorem ofCode?_code (kind : AttributeKind) : ofCode? kind.code = some kind := by
  cases kind <;> decide

/-- The order of codes is the order of `all`. -/
theorem all_pairwise_code_lt : all.Pairwise fun left right => left.code < right.code := by
  decide

theorem code_injective {left right : AttributeKind} (same : left.code = right.code) :
    left = right :=
  Option.some.inj (by rw [← ofCode?_code left, same, ofCode?_code])

end AttributeKind

end TypedIR
