import Launcher.Decimal.Shortest
import Launcher.Text.Quoted

/-!
# Plain values

The values that reach the launcher from outside its own types: what a program hands to the process
as an exit code, what a caller puts on the console, what stands in a plan in place of a command.
Each is shown in two ways. As a message a text is shown as it is; as a written form it is quoted.
-/

namespace Launcher

/-- A single plain value. A double is kept as its 64 bits, so that values can be compared. -/
inductive Scalar
  | nothing
  | boolean (value : Bool)
  | whole (value : Int)
  | double (bits : UInt64)
  | text (value : String)
  deriving DecidableEq, Repr

/-- A plain value or a list of them. -/
inductive Literal
  | scalar (value : Scalar)
  | list (items : List Scalar)
  deriving DecidableEq, Repr

/-- The text of a value in a message. -/
def Scalar.message : Scalar → String
  | .nothing => "None"
  | .boolean true => "True"
  | .boolean false => "False"
  | .whole n => toString n
  | .double bits => (Decimal.Value.ofBits bits).render
  | .text s => s

/-- The written form of a value: a text stands in quotation marks. -/
def Scalar.written : Scalar → String
  | .text s => Text.quote s
  | value => value.message

/-- The written form of a value or a list of values. -/
def Literal.written : Literal → String
  | .scalar value => value.written
  | .list items => Text.bracketed (items.map Scalar.written)

end Launcher
