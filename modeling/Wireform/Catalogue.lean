import Wireform.Catalogue.Formats

/-!
# The catalogue of described types

The types that come with descriptions: enumerations, aggregates described by their
declared members, aggregates with constructors of their own, and the custom
formats. An aggregate with declared members has a constructor that mirrors its
travelling members unless it says otherwise.

Types with a parameter have one description for each argument, so a schema is
made for the types that are going to be used with it.
-/

namespace Wireform.Catalogue

/-- A declared member. -/
def member (name : String) (type : Ty) (markers : List Marker := []) : Member :=
  { name, type, markers }

/-- A declared member that does not travel. -/
def skipped (name : String) (type : Ty) (blank : Value) : Member :=
  { name, type, blank := some blank }

/-- The description of an aggregate by its declared members. -/
def declared (type : Ty) (members : List Member) (initial : Option (List Value) := none)
    (mirrors : Bool := true) (style : Style := .named) : Entry :=
  let fields := Member.fieldsFrom 0 members
  let mirror : Constructor :=
    ⟨fields.map Field.parameter,
      (Value.record type <$> Member.assemble members : Arguments Value).apply⟩
  { type, members, style
    definition := .aggregate
      { fields
        constructors := if mirrors then [mirror] else []
        initial := initial.map (Value.record type) } }

/-- The description of an aggregate with constructors of its own. Each takes the
    given parameters, or those that mirror the fields, and yields the members. -/
def described (name : String) (members : List Member)
    (constructors : List (Option (List Parameter) × Arguments (List Value)) := [])
    (initial : Option (List Value) := none) : Entry :=
  let type := type name
  let fields := Member.fieldsFrom 0 members
  { type, members, style := .named
    definition := .aggregate
      { fields
        constructors := constructors.map fun constructor =>
          ⟨constructor.1.getD (fields.map Field.parameter),
            (Value.record type <$> constructor.2 : Arguments Value).apply⟩
        initial := initial.map (Value.record type) } }

/-- The description of an enumeration by the names of its members. -/
def enumerated (name : String) (names : List String) : Entry :=
  { type := type name, definition := .enumeration names }

/-- The description of an aggregate without members. -/
def empty (name : String) : Entry :=
  declared (type name) [] none true .unit

/-- The description of a custom type. -/
def customized (type : Ty) (members : List Member) (format : Custom) : Entry :=
  { type, members, style := .named, definition := .custom format }

/-- A described type as a member's or element's type. -/
def pair : Ty := type "Pair"
def suit : Ty := type "Suit"
def bag : Ty := type "Bag"
def outer : Ty := type "Outer"
def opaqueLeaf : Ty := type "Opaque"

/-- A label in front of a value of any type. -/
def labeled (argument : Ty) : Ty := .applied (home ++ "Labeled") argument

/-- Enumerations, leaves and custom types. -/
def basics : List Entry :=
  [ enumerated "Suit" ["Hearts", "SPADES", "Clubs"],
    enumerated "Color" ["RED", "GREEN", "", "Über"],
    { type := opaqueLeaf, definition := .leaf },
    { type := bag, definition := .sequence .i32 },
    customized rgb [member "r" .u8, member "g" .u8, member "b" .u8] rgbFormat,
    customized version [member "major" .u8, member "minor" .u8] versionFormat,
    customized linked [member "v" .i32, member "next" (.option (.boxed linked))] linkedFormat,
    customized hiddenCycle [member "depth" .u8] hiddenCycleFormat ]

/-- Aggregates that hold one another or themselves. -/
def nested : List Entry :=
  [ declared (type "Node")
      [member "label" .string, member "next" (.option (.boxed (type "Node")))],
    declared (type "Left") [member "right" (.option (.boxed (type "Right")))],
    declared (type "Right") [member "left" (.option (.boxed (type "Left")))],
    declared (type "Tree") [member "value" .i32, member "children" (.vector (type "Tree"))],
    declared (type "Forest")
      [member "by_name" (.map .ordered .string (type "Forest"))],
    declared (type "Inner") [member "values" (.vector .i32)],
    declared outer [member "name" .string, member "inner" (type "Inner")],
    declared (type "Deep")
      [member "outer" (.boxed outer), member "more" (.option outer),
        member "list" (.vector outer)],
    declared (type "ChainA")
      [member "b" (.option (type "ChainB")), member "tail" .i8],
    declared (type "ChainB") [member "c" (.vector (type "ChainC"))],
    declared (type "ChainC") [member "a" (.map .ordered .i8 (type "ChainA"))],
    declared (type "Siblings")
      [member "one" pair, member "two" pair, member "rest" (.vector pair)],
    declared (type "Wrapper") [member "inner" linked, member "hidden" hiddenCycle] ]

/-- Aggregates that only hold leaves, containers and basic types. -/
def flat : List Entry :=
  [ declared pair [member "a" .i32, member "b" .string],
    declared (type "AssignedPair") [member "a" .i32, member "b" .string]
      (some [.i32 0, .string ""]) false,
    declared (type "Both") [member "x" .i8, member "y" (.option .i8)]
      (some [.i8 0, .absent .i8]),
    declared (type "Hand")
      [member "suits" (.vector suit), member "favorite" (.option suit),
        skipped "cached_score" (.leaf .u64) (.u64 0)],
    declared (type "AllSkipped")
      [skipped "a" (.leaf .u64) (.u64 0), skipped "b" .bool (.bool false)],
    declared (type "Counter") [member "hits" .i64 [.tag "compact"], member "total" .i64],
    declared (type "Tagged")
      [member "a" .i32 [.tag "x", .tag "compact"], member "b" .string [.tag "x", .nullable],
        member "c" (.vector .i32)],
    declared (type "Noted") [member "note" .string [.nullable]],
    declared (type "NotedAssign") [member "note" .string [.nullable], member "n" .i8]
      (some [.string "", .i8 0]) false,
    declared (type "NullOpt") [member "x" (.option .i32) [.nullable]],
    declared (type "Patch") [member "nickname" (.option (.option .string))],
    declared (type "AllPrims")
      [member "a" .i8, member "b" .u8, member "c" .i16, member "d" .i32, member "e" .i64,
        member "f" (.leaf .f32), member "g" (.leaf .f64), member "h" .bool,
        member "i" (.leaf .char), member "j" .string, member "k" (.leaf .uuid),
        member "l" (.leaf .bytes), member "m" (.vector .u8)],
    declared (type "Kitchen")
      [member "vec" (.vector .string), member "deque" (.sequence .deque .i16),
        member "hset" (.sequence .hashedSet .i32), member "bset" (.sequence .orderedSet .string),
        member "arr" (.sequence (.array 3) .i16), member "hmap" (.map .hashed .string .i32),
        member "bmap" (.map .ordered .i32 (.vector .bool))],
    declared (type "WithOpaque") [member "id" .i32, member "o" (.option opaqueLeaf)],
    declared (type "Palette")
      [member "main" rgb, member "alt" (.option rgb), member "versions" (.vector version)],
    declared (type "Inventory") [member "bag" bag [.streamable .i32]],
    declared (type "Untyped") [member "bag" bag],
    declared (type "BagAsString") [member "bag" bag [.streamable .string]],
    declared (type "VecAsI64") [member "xs" (.vector .i32) [.streamable .i64]],
    declared (type "TwoStreams") [member "bag" bag [.streamable .i32, .streamable .string]],
    declared (type "BytesStreamed")
      [member "raw" (.vector .u8) [.streamable .u8], member "q" (.sequence .deque .u8)],
    declared (type "Meters") [member "0" (.leaf .f64)] none true .positional,
    declared (type "Triple")
      [member "0" .i8, skipped "1" (.leaf .u64) (.u64 0), member "2" (.option .string)]
      none true .positional,
    empty "Unit" ]

/-- Aggregates that are sent as packets. -/
def packets : List Entry :=
  [ empty "Pong", empty "EmptyId", empty "LongId", empty "MaxId", empty "UnicodeId",
    declared (type "LoginRequest") [member "user" .string],
    declared (type "net::LoginRequest") [member "user" .string, member "port" .i32],
    declared (type "Ping") [member "seq" .i64],
    declared (type "Blob") [member "data" (.leaf .bytes)],
    declared (type "ChatMessage")
      [member "channel" suit, member "author" .string, member "body" (.option .string),
        member "mentions" (.vector .string)],
    declared (type "Scoreboard")
      [member "scores" (.map .hashed .string .i32), skipped "dirty" .bool (.bool false)]
      (some [.map (.map .hashed .string .i32) [], .bool false]) ]
  ++ ["HTTPPing", "already_snake", "V2Beta3X", "Mixed_Case", "A", "ÉcoleÀPied", "İzmirİl",
      "ΑλφαΣ", "aǅꙀẞ", "漢字Ｘ"].map fun name => declared (type name) [member "n" .i8]

/-- Refuses an odd number. -/
def evenOnly (number : Value) : Arguments Value :=
  match number with
  | .scalar (.i32 actual) =>
      if actual.toInt % 2 = 0 then return number
      else throw (.custom (toString actual.toInt ++ " is odd"))
  | _ => throw (.typeMismatch Ty.i32.name)

/-- An argument of eight bits with a number added to it modulo 256. -/
def shifted (distance : Int8) : Arguments (List Value) := do
  match ← Arguments.take .i8 with
  | .scalar (.i8 number) => return [.i8 (number + distance)]
  | _ => throw (.typeMismatch Ty.i8.name)

/-- Aggregates whose constructors do not mirror their fields, or which have none. -/
def handmade : List Entry :=
  [ described "Sealed" [member "id" .i64],
    described "SealedEmpty" [],
    described "DefaultEmpty" [] [] (some []),
    described "Checked" [member "even" .i32]
      [(none, do return [← evenOnly (← Arguments.take .i32)])] (some [.i32 0]),
    described "FewParams" [member "a" .i32, member "b" .i8]
      [(some [⟨"a", .i32, []⟩], do return [← Arguments.take .i32, .i8 99])]
      (some [.i32 (-1), .i8 (-2)]),
    described "FewOnly" [member "a" .i32, member "b" .i8]
      [(some [⟨"a", .i32, []⟩], do return [← Arguments.take .i32, .i8 99])],
    described "Swapped" [member "a" .i32, member "b" .string]
      [(some [⟨"bee", .string, []⟩, ⟨"ay", .i32, []⟩], do
        let bee ← Arguments.take .string
        let ay ← Arguments.take .i32
        return [ay, bee])],
    described "ParamMarked" [member "a" .i32]
      [(some [⟨"a", .i32, [.nullable, .tag "p"]⟩], do return [← Arguments.take .i32])],
    described "ManyCtors" [member "a" .i8]
      [(some [], return [.i8 1]), (none, shifted 10), (none, shifted 20)],
    described "TakesMore" [member "a" .i8]
      [(none, do
        let a ← Arguments.take .i8
        let _ ← Arguments.take .string
        return [a])],
    described "TakesLess" [member "a" .i8, member "b" .i8]
      [(none, do return [← Arguments.take .i8, .i8 7])],
    described "TakesWrong" [member "a" .i8]
      [(none, do
        match ← Arguments.take .i64 with
        | .scalar (.i64 number) => return [.i8 number.toInt8]
        | _ => throw (.typeMismatch Ty.i64.name))],
    described "ParamNarrow" [member "a" .i32]
      [(some [⟨"a", .u8, []⟩], do
        match ← Arguments.take .u8 with
        | .scalar (.u8 number) => return [.i32 (Int32.ofNat number.toNat)]
        | _ => throw (.typeMismatch Ty.u8.name))],
    described "EarlyMarker" [member "a" .i8, member "b" .i8 [.tag "late", .nullable]]
      [(none, do return [← Arguments.take .i8, ← Arguments.take .i8])] ]

/-- The description of a type with a parameter. -/
def application? : Ty → Option Entry
  | .applied generic argument =>
      if .applied generic argument = labeled argument then
        some (declared (labeled argument) [member "label" .string, member "value" argument])
      else none
  | _ => none

/-- The schema of the catalogue, with the descriptions of the given types that have
    a parameter. -/
def schema (applications : List Ty := []) : Schema where
  entries := basics ++ nested ++ flat ++ packets ++ handmade ++ applications.filterMap application?

end Wireform.Catalogue
