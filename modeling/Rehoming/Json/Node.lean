import Rehoming.Json.Token

/-! The syntax tree of a JSON text, before anything in it is interpreted. -/

namespace Rehoming.Json

open Text (Symbol)

/-- Names and texts keep their escapes, numerals their characters, and objects all
of their members, in order. -/
inductive Node where
  | null
  | bool (value : Bool)
  | numeral (chars : List Char)
  | text (symbols : List Symbol)
  | array (items : List Node)
  | object (members : List (List Symbol × Node))

namespace Node

/-- An array or object that is still open, with its content so far in reverse. -/
inductive Frame where
  | items (done : List Node)
  | members (done : List (List Symbol × Node)) (name : List Symbol)

/-- What may come next. The stack holds what is open, the innermost first. -/
inductive State where
  | value (stack : List Frame)
  | firstItem (stack : List Frame)
  | firstName (stack : List Frame)
  | name (done : List (List Symbol × Node)) (stack : List Frame)
  | colon (done : List (List Symbol × Node)) (name : List Symbol) (stack : List Frame)
  | complete (node : Node) (stack : List Frame)

/-- A token where a value must begin. -/
def begin? (stack : List Frame) : Token → Option State
  | .null => some (.complete .null stack)
  | .bool value => some (.complete (.bool value) stack)
  | .numeral chars => some (.complete (.numeral chars) stack)
  | .text symbols => some (.complete (.text symbols) stack)
  | .openArray => some (.firstItem stack)
  | .openObject => some (.firstName stack)
  | _ => none

def step? : State → Token → Option State
  | .value stack, token => begin? stack token
  | .firstItem stack, .closeArray => some (.complete (.array []) stack)
  | .firstItem stack, token => begin? (.items [] :: stack) token
  | .firstName stack, .closeObject => some (.complete (.object []) stack)
  | .firstName stack, .text name => some (.colon [] name stack)
  | .name done stack, .text name => some (.colon done name stack)
  | .colon done name stack, .colon => some (.value (.members done name :: stack))
  | .complete node (.items done :: stack), .comma => some (.value (.items (node :: done) :: stack))
  | .complete node (.items done :: stack), .closeArray =>
    some (.complete (.array (node :: done).reverse) stack)
  | .complete node (.members done name :: stack), .comma =>
    some (.name ((name, node) :: done) stack)
  | .complete node (.members done name :: stack), .closeObject =>
    some (.complete (.object ((name, node) :: done).reverse) stack)
  | _, _ => none

def run : State → List Token → Option Node
  | .complete node [], [] => some node
  | _, [] => none
  | state, token :: rest =>
    match step? state token with
    | some state => run state rest
    | none => none

def ofTokens? (tokens : List Token) : Option Node := run (.value []) tokens

def ofSymbols? (symbols : List Symbol) : Option Node := (Token.scan? symbols).bind ofTokens?

def ofString? (text : String) : Option Node := ofSymbols? (text.toList.map some)

def ofBytes? (bs : Bytes) : Option Node := ofSymbols? (Text.Utf8.symbols bs)

end Node
end Rehoming.Json
