/-!
# Why a description cannot be generated

One constructor for each reason. A declaration or an attribute that cannot be read
at all carries its own account of what was expected.
-/

namespace Wireform.Derive

/-- Why no description is generated for a declaration. -/
inductive Fault
  | lifetimeParameters
  | union
  | genericEnumeration
  | noMembers
  | memberWithFields
  | duplicateName
  /-- Without a constructor there has to be a default to assign to. -/
  | noConstructor
  /-- The attribute has no list of items. -/
  | listExpected
  | unexpectedLiteral
  | unknownItem
  | textExpected
  | unreadable (account : String)
deriving DecidableEq, Repr

/-- What is reported to a user. -/
def Fault.message : Fault → String
  | .lifetimeParameters => "Reflect cannot be derived for types with lifetime parameters"
  | .union => "Reflect cannot be derived for unions"
  | .genericEnumeration => "Reflect cannot be derived for generic enums"
  | .noMembers => "Reflect cannot be derived for enums without members"
  | .memberWithFields => "Reflect can only be derived for enums without fields"
  | .duplicateName => "duplicate member name"
  | .noConstructor => "`skip_constructor` requires `default`"
  | .listExpected => "expected #[reflect(...)]"
  | .unexpectedLiteral => "unexpected literal"
  | .unknownItem => "unknown reflect attribute"
  | .textExpected => "expected a string"
  | .unreadable account => account

/-- A reading that can fail. -/
abbrev Reading (α : Type) := Except Fault α

end Wireform.Derive
