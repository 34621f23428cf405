/-!
# Errors

What can go wrong while the text of a box is compiled. Every error but `overlap` and `misuse` is the
user's: those are flashed into the form, while the other two show a defect of the form itself.
-/

namespace SearchBox

/-- A reason why a text is not compiled. -/
inductive Error
  /-- The text is ambiguous or no token. -/
  | malformed (text : String)
  /-- The token is not a number that can be stored. -/
  | invalidNumber (token : String)
  /-- The text is well formed and not accepted by its box. -/
  | rejected (text : String)
  /-- The text names more values than its box allows. -/
  | tooManyOptions
  /-- A set condition meets a field that already has a value, or the other way round. -/
  | conflict (text : String)
  /-- The name is neither a label nor a known alias. -/
  | unresolved (text : String)
  /-- Two paired boxes constrain the same key. -/
  | overlap (key : String)
  /-- The form is set up wrongly. -/
  | misuse (text : String)
  deriving DecidableEq, Inhabited

namespace Error

/-- The classes of errors. -/
inductive Kind
  | malformed
  | rejected
  | unresolved
  | misuse
  deriving DecidableEq

/-- The class of an error. -/
def kind : Error → Kind
  | malformed _ | invalidNumber _ => .malformed
  | rejected _ | tooManyOptions | conflict _ => .rejected
  | unresolved _ => .unresolved
  | overlap _ | misuse _ => .misuse

/-- The user caused the error. -/
def isInput (e : Error) : Bool := e.kind != .misuse

/-- The wording of an error. -/
def message : Error → String
  | malformed text | rejected text | unresolved text => text
  | invalidNumber token => "Unable to parse '" ++ token ++ "' as a number"
  | tooManyOptions => "Too many options"
  | conflict _ => "Cannot specify containment and equality simultaneously"
  | overlap key => "Paired fields both constrain '" ++ key ++ "'"
  | misuse text => "Programming error: " ++ text

@[simp] theorem isInput_overlap (key : String) : (overlap key).isInput = false := rfl

@[simp] theorem isInput_misuse (text : String) : (misuse text).isInput = false := rfl

end Error

end SearchBox
