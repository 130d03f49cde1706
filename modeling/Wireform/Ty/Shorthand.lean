import Wireform.Ty

/-!
# Type expressions as text

Type expressions can be written without module paths and blanks, as in
`BTreeMap<i8,Option<Node>>` or `[i16;3]`. Names that are neither leaves nor
containers refer to described types; they are taken to live under a common path,
the home, which the text leaves out.
-/

namespace Wireform.Ty

/-- The leaf types by their short names. -/
def leaves : List (String × Leaf) :=
  [("i8", .i8), ("u8", .u8), ("i16", .i16), ("u16", .u16), ("i32", .i32), ("i64", .i64),
    ("u64", .u64), ("f32", .f32), ("f64", .f64), ("bool", .bool), ("char", .char),
    ("String", .string), ("Uuid", .uuid), ("Bytes", .bytes)]

/-- The short name of a leaf type. -/
def leafText (leaf : Leaf) : String :=
  match leaves.find? (fun entry => entry.2 = leaf) with
  | some entry => entry.1
  | none => leaf.name

/-- A type written out, with described types relative to the home. -/
def shorthand (home : String) : Ty → String
  | .leaf kind => leafText kind
  | .named qualified => (qualified.dropPrefix home).toString
  | .applied generic argument =>
      (generic.dropPrefix home).toString ++ "<" ++ argument.shorthand home ++ ">"
  | .option inner => "Option<" ++ inner.shorthand home ++ ">"
  | .boxed inner => "Box<" ++ inner.shorthand home ++ ">"
  | .sequence .vector element => "Vec<" ++ element.shorthand home ++ ">"
  | .sequence .deque element => "VecDeque<" ++ element.shorthand home ++ ">"
  | .sequence .orderedSet element => "BTreeSet<" ++ element.shorthand home ++ ">"
  | .sequence .hashedSet element => "HashSet<" ++ element.shorthand home ++ ">"
  | .sequence (.array length) element =>
      "[" ++ element.shorthand home ++ ";" ++ toString length ++ "]"
  | .map .ordered key value =>
      "BTreeMap<" ++ key.shorthand home ++ "," ++ value.shorthand home ++ ">"
  | .map .hashed key value =>
      "HashMap<" ++ key.shorthand home ++ "," ++ value.shorthand home ++ ">"

/-- The types with one parameter. Any other name is a described type. -/
def unary (home name : String) (argument : Ty) : Ty :=
  match name with
  | "Option" => .option argument
  | "Box" => .boxed argument
  | "Vec" => .sequence .vector argument
  | "VecDeque" => .sequence .deque argument
  | "BTreeSet" => .sequence .orderedSet argument
  | "HashSet" => .sequence .hashedSet argument
  | name => .applied (home ++ name) argument

/-- The types with two parameters. -/
def binary? (name : String) (first second : Ty) : Option Ty :=
  match name with
  | "BTreeMap" => some (.map .ordered first second)
  | "HashMap" => some (.map .hashed first second)
  | _ => none

/-- The types without parameters. -/
def nullary (home name : String) : Ty :=
  match leaves.find? (fun entry => entry.1 = name) with
  | some entry => .leaf entry.2
  | none => .named (home ++ name)

/-- The characters that end a name. -/
def delimits (char : Char) : Bool :=
  char == '<' || char == '>' || char == ',' || char == ';' || char == '[' || char == ']'

/-- Reads a type off the front of a text. The fuel bounds the nesting. -/
def read (home : String) : (fuel : Nat) → List Char → Option (Ty × List Char)
  | 0, _ => none
  | fuel + 1, '[' :: rest => do
      let (element, rest) ← read home fuel rest
      match rest with
      | ';' :: rest =>
          let digits := rest.takeWhile Char.isDigit
          match rest.dropWhile Char.isDigit with
          | ']' :: rest =>
              let length ← (String.ofList digits).toNat?
              return (.sequence (.array length) element, rest)
          | _ => none
      | _ => none
  | fuel + 1, text => do
      let name := String.ofList (text.takeWhile fun char => !delimits char)
      if name.isEmpty then none
      match text.dropWhile fun char => !delimits char with
      | '<' :: rest =>
          let (first, rest) ← read home fuel rest
          match rest with
          | '>' :: rest => return (unary home name first, rest)
          | ',' :: rest =>
              let (second, rest) ← read home fuel rest
              match rest with
              | '>' :: rest => return (← binary? name first second, rest)
              | _ => none
          | _ => none
      | rest => return (nullary home name, rest)

/-- The type that a text denotes, if it denotes one. -/
def ofShorthand? (home text : String) : Option Ty :=
  match read home (text.length + 1) text.toList with
  | some (type, []) => some type
  | _ => none

/-- The described types with a parameter that occur in a type. -/
def applications : Ty → List Ty
  | .leaf _ => []
  | .named _ => []
  | .applied generic argument => .applied generic argument :: argument.applications
  | .option inner => inner.applications
  | .boxed inner => inner.applications
  | .sequence _ element => element.applications
  | .map _ key value => key.applications ++ value.applications

end Wireform.Ty
