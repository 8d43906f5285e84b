/-
Faults.

Everything that can go wrong has a cause, and each cause has one wording. The
causes fall into kinds, and a kind is a special case of other kinds: a session
reports the faults of the language and goes on, while the limits of the host end
it. A cause that shows a value carries the text of that value.

* `ReadFault`, `ShowFault`, `FormFault`: what goes wrong in reading a text, in
  writing a value, and in the shape of a special form.
* `Fault`: every cause, `Fault.message` its wording and `Fault.kind` its kind.
* `FaultKind`: the kinds, `FaultKind.lineage` the kinds that a kind belongs to.
-/
import TinyLisp.Value.Basic
import TinyLisp.Text.Numeral

namespace TinyLisp

/-! ### Causes -/

/-- What goes wrong in reading a text. -/
inductive ReadFault where
  /-- The text holds no form. -/
  | noForm
  /-- The text ends inside a list. -/
  | unclosedList
  /-- A closing parenthesis has no list to close. -/
  | strayClose
  /-- A string has no closing quote. -/
  | unclosedString (token : String)
  /-- An integer has more digits than the limit. -/
  | longNumeral (digits : Nat)
  deriving DecidableEq

/-- What goes wrong in writing a value as text. -/
inductive ShowFault where
  /-- An integer has more digits than the limit. -/
  | longInteger
  /-- The value is none of the language. -/
  | foreign (shown : String)
  deriving DecidableEq

/-- What goes wrong in the shape of a special form. -/
inductive FormFault where
  | defineArity
  | defineName (shown : String)
  | letArity
  | letBindings (shown : String)
  | letPairs
  | letName (shown : String)
  | ifArity
  | fnArity
  | fnParams (shown : String)
  | fnParam (shown : String)
  deriving DecidableEq

/-- The causes of failure. -/
inductive Fault where
  | read (f : ReadFault)
  | display (f : ShowFault)
  /-- No environment of the chain binds the name. -/
  | unbound (name : String)
  /-- Only symbols and strings name a binding. -/
  | notAName (shown : String)
  | closureArity (expected got : Nat)
  | primitiveArity (p : Primitive) (expected got : Nat)
  | primitiveType (p : Primitive)
  | form (f : FormFault)
  | divisionByZero
  | notCallable (shown : String)
  /-- One call more than the limit on nested calls. -/
  | callDepth (limit : Int)
  /-- The host has no room left for the evaluation. -/
  | stackDepth
  /-- The host has no room to read the text. -/
  | inputDepth
  /-- The host has no room to write the result. -/
  | displayDepth
  | unknownLevel (shown : String)
  /-- The limit on nested calls asks for more room than the host can have. -/
  | roomSetting
  deriving DecidableEq

/-- The fault that carries the text of a value, or the fault that the value has none. -/
def Fault.showing (shown : Except ShowFault String) (fault : String → Fault) : Fault :=
  match shown with
  | .ok text => fault text
  | .error f => .display f

/-! ### Wording -/

/-- The wording shared by both directions of the limit on the digits of an integer. -/
def digitLimitMessage (subject : String) : String :=
  "Exceeds the limit (" ++ Text.natural Text.digitLimit ++
    " digits) for integer string conversion" ++ subject ++
    "; use sys.set_int_max_str_digits() to increase the limit"

/-- The wording of a failure to read. -/
def ReadFault.message : ReadFault → String
  | noForm => "No tokens found"
  | unclosedList => "Expected ')' but found EOF"
  | strayClose => "Unexpected ')'"
  | unclosedString token => "Unbalanced string: expected '\"', got EOF in " ++ token
  | longNumeral digits => digitLimitMessage (": value has " ++ Text.natural digits ++ " digits")

/-- The wording of a failure to write. -/
def ShowFault.message : ShowFault → String
  | longInteger => digitLimitMessage ""
  | foreign shown => "Not a mal value: " ++ shown

/-- The wording of a malformed special form. -/
def FormFault.message : FormFault → String
  | defineArity => "def! requires exactly 2 arguments: (def! name expr)"
  | defineName shown => "def! first argument must be a Symbol, got " ++ shown
  | letArity => "let* requires a binding list and a body: (let* (k v ...) body)"
  | letBindings shown => "let* bindings must be a list, got " ++ shown
  | letPairs => "let* bindings must come in name/value pairs"
  | letName shown => "let* binding name must be a Symbol, got " ++ shown
  | ifArity => "if requires a condition, a then-expression and an optional else"
  | fnArity => "fn* requires a parameter list and a body: (fn* (params) body)"
  | fnParams shown => "fn* parameters must be a list, got " ++ shown
  | fnParam shown => "fn* parameter must be a Symbol, got " ++ shown

/-- The wording of a cause; the refusal of a room setting has none. -/
def Fault.message? : Fault → Option String
  | read f => some f.message
  | display f => some f.message
  | unbound name => some ("'" ++ name ++ "' not found")
  | notAName shown => some ("Cannot bind " ++ shown ++ ": expected a symbol")
  | closureArity expected got =>
    some ("Expected " ++ Text.natural expected ++ " argument(s), got " ++ Text.natural got)
  | primitiveArity p expected got =>
    some (p.name ++ " requires exactly " ++ Text.natural expected ++ " argument(s), got " ++
      Text.natural got)
  | primitiveType p => some ("Wrong type of arguments for `" ++ p.name ++ "' operator")
  | form f => some f.message
  | divisionByZero => some "Division by zero"
  | notCallable shown => some (shown ++ " is not a function")
  | callDepth limit =>
    some ("Maximum call depth of " ++ String.ofList (Text.decimal limit) ++ " exceeded")
  | stackDepth => some "Maximum recursion depth exceeded"
  | inputDepth => some "Input is nested too deeply"
  | displayDepth => some "Value is nested too deeply to print"
  | unknownLevel shown => some ("Unknown level: " ++ shown)
  | roomSetting => none

/-! ### Kinds -/

/-- The kinds of fault, from the general to the special. -/
inductive FaultKind where
  | any
  | arithmetic
  | zeroDivision
  | overflow
  | value
  | type
  | language
  | parse
  | unexpectedToken
  | symbolNotFound
  | argument
  | argumentArity
  | argumentType
  | notCallable
  | divisionByZero
  | recursion
  deriving DecidableEq

namespace FaultKind

/-- The name by which a kind is reported. -/
def name : FaultKind → String
  | any => "Exception"
  | arithmetic => "ArithmeticError"
  | zeroDivision => "ZeroDivisionError"
  | overflow => "OverflowError"
  | value => "ValueError"
  | type => "TypeError"
  | language => "MalError"
  | parse => "MalParseError"
  | unexpectedToken => "MalUnexpectedToken"
  | symbolNotFound => "MalSymbolNotFound"
  | argument => "MalArgumentError"
  | argumentArity => "MalArityError"
  | argumentType => "MalTypeError"
  | notCallable => "MalNotCallable"
  | divisionByZero => "MalDivisionByZero"
  | recursion => "MalRecursionError"

/-- All kinds. -/
def all : List FaultKind :=
  [any, arithmetic, zeroDivision, overflow, value, type, language, parse, unexpectedToken,
   symbolNotFound, argument, argumentArity, argumentType, notCallable, divisionByZero, recursion]

/-- The kind of a name. -/
def ofName? (name : String) : Option FaultKind :=
  all.find? (·.name == name)

/-- The kinds that a kind belongs to, itself first and the most general last. A division by zero
belongs both to the language and to arithmetic. -/
def lineage : FaultKind → List FaultKind
  | any => [any]
  | arithmetic => [arithmetic, any]
  | zeroDivision => [zeroDivision, arithmetic, any]
  | overflow => [overflow, arithmetic, any]
  | value => [value, any]
  | type => [type, any]
  | language => [language, any]
  | parse => [parse, language, any]
  | unexpectedToken => [unexpectedToken, parse, language, any]
  | symbolNotFound => [symbolNotFound, language, any]
  | argument => [argument, language, any]
  | argumentArity => [argumentArity, argument, language, any]
  | argumentType => [argumentType, argument, language, any]
  | notCallable => [notCallable, language, any]
  | divisionByZero => [divisionByZero, language, zeroDivision, arithmetic, any]
  | recursion => [recursion, language, any]

end FaultKind

/-- The kind of a failure to read. -/
def ReadFault.kind : ReadFault → FaultKind
  | noForm => .parse
  | unclosedList => .unexpectedToken
  | strayClose => .unexpectedToken
  | unclosedString _ => .parse
  | longNumeral _ => .value

/-- The kind of a failure to write. -/
def ShowFault.kind : ShowFault → FaultKind
  | longInteger => .value
  | foreign _ => .type

/-- A malformed special form has the wrong number of parts or a part of the wrong type. -/
def FormFault.kind : FormFault → FaultKind
  | defineArity | letArity | letPairs | ifArity | fnArity => .argumentArity
  | defineName _ | letBindings _ | letName _ | fnParams _ | fnParam _ => .argumentType

/-- The kind of a cause. -/
def Fault.kind : Fault → FaultKind
  | read f => f.kind
  | display f => f.kind
  | unbound _ => .symbolNotFound
  | notAName _ => .argumentType
  | closureArity _ _ => .argumentArity
  | primitiveArity _ _ _ => .argumentArity
  | primitiveType _ => .argumentType
  | form f => f.kind
  | divisionByZero => .divisionByZero
  | notCallable _ => .notCallable
  | callDepth _ => .recursion
  | stackDepth => .recursion
  | inputDepth => .parse
  | displayDepth => .recursion
  | unknownLevel _ => .value
  | roomSetting => .overflow

/-- Whether a fault is one of the language, which a session reports before it goes on. -/
def Fault.isReported (f : Fault) : Bool :=
  f.kind.lineage.contains .language

end TinyLisp
