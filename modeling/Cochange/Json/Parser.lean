import Cochange.Json.Token

/-!
# Reading JSON

A machine goes over the tokens with a stack of the arrays and objects that are still open. It
takes every text as far as the text is JSON: where it stops being JSON, every open array and
object is closed around a `fault`. Nesting is unbounded here; who reads a value says how deep it
may be.
-/

namespace Cochange.Json

/-- An array or object that is still open, its contents so far in reverse. -/
inductive Frame where
  /-- An array between two items. -/
  | items (done : List Json)
  /-- An object between two fields. -/
  | fields (done : List (Literal × Json))
  /-- An object with a field whose value is still to come. -/
  | value (done : List (Literal × Json)) (key : Literal)

/-- What the machine waits for. -/
inductive Expect where
  | value
  /-- The first item of an array, or its end. -/
  | valueOrEnd
  | key
  /-- The first field of an object, or its end. -/
  | keyOrEnd
  | colon
  /-- A comma or the end of the innermost array or object. -/
  | commaOrEnd
  deriving DecidableEq

/-- What was read: the value and whether text follows it. -/
structure Document where
  value : Json
  hasMore : Bool

/-- The outermost value when the text stops inside these frames. -/
def abandon : List Frame → Json → Json
  | [], v => v
  | .items done :: stack, v => abandon stack (array (done.reverse ++ [v]))
  | .fields done :: stack, v => abandon stack (object (done.reverse ++ [(.text "", v)]))
  | .value done key :: stack, v => abandon stack (object (done.reverse ++ [(key, v)]))

/-- A finished value put into the innermost frame. -/
def Frame.deliver (v : Json) : Frame → Frame
  | items done => items (v :: done)
  | value done key => fields ((key, v) :: done)
  | fields done => fields done

/-- The innermost frame as a value, if the token closes it. -/
def Frame.closedBy? : Frame → Token → Option Json
  | items done, .closeArray => some (array done.reverse)
  | fields done, .closeObject => some (object done.reverse)
  | _, _ => none

/-- What a token leads to. -/
inductive Move where
  | goOn (stack : List Frame) (expect : Expect)
  /-- The outermost value is finished. -/
  | finish (v : Json)
  /-- The text stops being JSON. -/
  | stop

/-- The move when a value is finished inside these frames. -/
def give (v : Json) : List Frame → Move
  | [] => .finish v
  | frame :: stack => .goOn (frame.deliver v :: stack) .commaOrEnd

/-- The move when a token is to close the innermost frame. -/
def close (t : Token) : List Frame → Move
  | [] => .stop
  | frame :: stack =>
    match frame.closedBy? t with
    | none => .stop
    | some v => give v stack

/-- The move when a token is to be the next key of the innermost frame. -/
def takeKey (s : Literal) : List Frame → Move
  | .fields done :: stack => .goOn (.value done s :: stack) .colon
  | _ => .stop

/-- The move behind a comma. -/
def afterComma : List Frame → Move
  | .items done :: stack => .goOn (.items done :: stack) .value
  | .fields done :: stack => .goOn (.fields done :: stack) .key
  | _ => .stop

/-- The move of the machine at a token. -/
def move (stack : List Frame) : Expect → Token → Move
  | .value, .scalar v | .valueOrEnd, .scalar v => give v stack
  | .value, .literal s | .valueOrEnd, .literal s => give (string s) stack
  | .value, .openArray | .valueOrEnd, .openArray => .goOn (.items [] :: stack) .valueOrEnd
  | .value, .openObject | .valueOrEnd, .openObject => .goOn (.fields [] :: stack) .keyOrEnd
  | .key, .literal s | .keyOrEnd, .literal s => takeKey s stack
  | .colon, .colon => .goOn stack .value
  | .commaOrEnd, .comma => afterComma stack
  | .valueOrEnd, .closeArray => close .closeArray stack
  | .keyOrEnd, .closeObject => close .closeObject stack
  | .commaOrEnd, t => close t stack
  | _, _ => .stop

/-- The machine. -/
def run (stack : List Frame) (expect : Expect) : List Token → Document
  | [] => ⟨abandon stack fault, false⟩
  | t :: ts =>
    match move stack expect t with
    | .goOn stack expect => run stack expect ts
    | .finish v => ⟨v, !ts.isEmpty⟩
    | .stop => ⟨abandon stack fault, false⟩

/-- The JSON value a text begins with. -/
def Document.ofString (s : String) : Document :=
  run [] .value (Token.scan s.toList)

/-- The value of a text that is JSON from beginning to end. -/
def parse? (s : String) : Option Json :=
  let d := Document.ofString s
  if d.hasMore || !d.value.isComplete then none else some d.value

end Cochange.Json
