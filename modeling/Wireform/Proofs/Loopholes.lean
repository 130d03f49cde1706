import Wireform.Proofs.Extension

/-!
# What exact codecs leave open

One might ask less of rules than lawful ones have to promise: that they do not look at values
when they claim or apply, that each resolver supplies one type with codecs that read back
exactly what they write, and that each wrapper leaves a codec exact, be it for present values
or for all optional ones. This is not enough for what is encoded to be decoded again. There are
four ways out, and lawful rules close them:

* a rule can tell a field from the parameter that receives it;
* a rule can claim a place regardless of the value and still make a codec that depends on it;
* a wrapper can rely on members that do not travel, since it has to be right about codecs
  only that bring them back;
* a context can claim a site that stands for something else, and then its codec is
  remembered there.

In each case something is encoded within the limits, and decoding fails on the bytes.
-/

namespace Wireform

open Buffer (Conveys)

/-- Rules that claim and apply without looking at values, of which resolvers supply one type with
    codecs that read back exactly what they write, and transforms leave codecs exact. -/
structure ExactRules (schema : Schema) (config : Config) (resolvers : List Resolver)
    (transforms : List Transform) : Prop where
  supply : ∀ resolver ∈ resolvers,
    (∀ context, resolver.claims context = resolver.claims context.bare) ∧
      ∃ type, ∀ context, resolver.claims context = true → context.unwrapped = type ∧
        ∀ codec, resolver.make context = .ok codec →
          codec.LawfulTyped config type (Value.Typed schema type) (· = ·)
  keep : ∀ transform ∈ transforms, transform.Static ∧ ∀ depth,
    transform.Keeps (Codec.Lawful (Serializer.build schema config resolvers transforms) depth
        (fun value => value.isSome = true) (· = ·)) ∧
      transform.Keeps (Codec.Lawful (Serializer.build schema config resolvers transforms) depth
        (fun _ => True) (· = ·))

namespace Serializer

/-- The value is encoded, and decoding fails on the bytes. -/
def Loses (serializer : Serializer) (memory : Memory) (value : Value) : Prop :=
  ∃ bytes later error after, serializer.encode value memory = .ok bytes later ∧
    serializer.decode value.type bytes later = .error error after

/-- Encodes a value and says why decoding it fails, if it does. -/
def lost? (serializer : Serializer) (memory : Memory) (value : Value) : Option Error :=
  match serializer.encode value memory with
  | .ok bytes later => Step.failure? (serializer.decode value.type bytes later)
  | .error _ _ => none

/-- What is known to be lost is lost. -/
theorem loses_of_lost? (serializer : Serializer) (memory : Memory) (value : Value) (error : Error)
    (lost : serializer.lost? memory value = some error) : serializer.Loses memory value := by
  unfold lost? at lost
  cases encoded : serializer.encode value memory with
  | error cause later => rw [encoded] at lost; cases lost
  | ok bytes later =>
      rw [encoded] at lost
      obtain ⟨after, failed⟩ := Step.exists_of_failure? lost
      exact ⟨bytes, later, error, after, encoded, failed⟩

/-! ## Fields and parameters -/

/-- Numbers are stored in eight octets in fields, and nowhere else. -/
def fieldwise : Resolver where
  priority := 500
  claims context :=
    context.unwrapped = .i32 &&
      match context.site with
      | some (.field _ _) => true
      | _ => false
  make _ := .ok Recipe.i32Widened

/-- The rule for fields is exact. -/
theorem exact_fieldwise : ExactRules orchards {} [fieldwise] [] := by
  refine ⟨fun resolver added => ?_, List.forall_mem_nil _⟩
  cases List.mem_singleton.mp added
  refine ⟨fun _ => rfl, .i32, fun context claimed => ⟨?_, ?_⟩⟩
  · have both := (Bool.and_eq_true _ _).mp claimed
    exact of_decide_eq_true both.1
  · rintro codec ⟨⟩
    exact Recipe.i32Widened_lawful _ fun _ => rfl

/-! ## Values that are looked at late -/

/-- Numbers are stored in eight octets wherever there is one to store. -/
def hasty : Resolver where
  priority := 500
  claims context := context.unwrapped = .i32
  make context := .ok (if context.value.isSome then Recipe.i32Widened else Codec.leaf .i32)

/-- The rule for what is there to store is exact. -/
theorem exact_hasty : ExactRules orchards {} [hasty] [] := by
  refine ⟨fun resolver added => ?_, List.forall_mem_nil _⟩
  cases List.mem_singleton.mp added
  refine ⟨fun _ => rfl, .i32, fun context claimed => ⟨of_decide_eq_true claimed, ?_⟩⟩
  rintro codec ⟨⟩
  split
  · exact Recipe.i32Widened_lawful _ fun _ => rfl
  · refine ⟨_, _, rfl, fun value typed => ?_⟩
    obtain ⟨plain, rfl, small⟩ := typed.scalar_of_leaf
    have admitted : ∀ piece ∈ plain.layout, piece.Admitted {} :=
      fun piece _ => piece.admitted_unlimited
    rw [← small]
    exact Leaf.conveys_value plain _ rfl admitted

/-! ## Members that do not travel -/

/-- An octet that depends on a member that does not travel. -/
def digest : Option Value → UInt8
  | some (.record _ [_, .scalar (.u64 number), _]) => number.toUInt8
  | _ => 0

/-- The octet goes behind orchards and is checked on reading. -/
def digesting : Transform where
  applies context := context.unwrapped = .named "Orchard"
  wrap inner :=
    { encode := fun value => do
        inner.encode value
        Wrapping.writeOctet (digest value)
      decode := do
        let value ← inner.decode
        Wrapping.expectOctet (digest value) "bad digest"
        return value }

/-- The octet leaves codecs exact that bring back all members, whatever they are exact for. -/
theorem digesting_keeps (serializer : Serializer) (depth : Nat) (among : Option Value → Prop) :
    digesting.Keeps (Codec.Lawful serializer depth among (· = ·)) := by
  intro inner exact visited value occurs
  have own := exact visited value occurs
  simp only [digesting, Program.run_bind]
  refine Buffer.conveys_bind own fun result same => ?_
  have octet := Wrapping.conveys_octet serializer depth visited (digest value) "bad digest"
  have equal : result = value := by
    cases same with
    | some equal => rw [equal]
    | none => rfl
  subst equal
  exact Buffer.conveys_bind_pure octet fun _ _ => ⟨result, same, fun _ => rfl⟩

/-- The wrapper that checks the octet is exact. -/
theorem exact_digesting : ExactRules orchards {} [] [digesting] := by
  refine ⟨List.forall_mem_nil _, fun transform added => ?_⟩
  cases List.mem_singleton.mp added
  exact ⟨fun _ => rfl, fun depth => ⟨digesting_keeps _ depth _, digesting_keeps _ depth _⟩⟩

/-! ## Sites that stand for something else -/

/-- A schema of a pair. -/
def pairs : Schema where
  entries :=
    [Catalogue.declared Catalogue.pair [Catalogue.member "a" .i32, Catalogue.member "b" .string]]

/-- A pair of a number and a text. -/
def pair : Value := .record Catalogue.pair [.i32 7, .string "x"]

/-- A number that may be absent, at the site of the pair's number. -/
def misplaced : Context :=
  .ofPlace .i32 [.nullable] (.parameter Catalogue.pair 0 0) (some (.i32 5))

/-- Pairs are invertible. -/
theorem pairs_invertible : pairs.Throughout pairs.Invertible Catalogue.pair := by
  refine Schema.throughout_of_closed [Catalogue.pair, .i32, .string] List.mem_cons_self (by decide)
    ?_
  simp only [List.mem_cons, List.not_mem_nil, or_false]
  rintro type (rfl | rfl | rfl)
  · refine ⟨Schema.derived_of_declared _ _ none true .named rfl ?_ (by simp) (by simp), trivial⟩
    simp only [Member.fieldsFrom, Catalogue.member, List.mem_cons, List.not_mem_nil, or_false]
    rintro field (rfl | rfl) kind element named ⟨⟩
  · exact ⟨.leaf _ (by decide), trivial⟩
  · exact ⟨.leaf _ (by decide), trivial⟩

/-- The pair is typed. -/
theorem pair_typed : pair.Typed pairs Catalogue.pair := by
  refine .record _ _ rfl _ rfl _ rfl ?_
  simp only [Member.fieldsFrom, Catalogue.member, List.mem_cons, List.not_mem_nil, or_false]
  rintro field (rfl | rfl) member ⟨⟩
  · exact .scalar (.i32 7)
  · exact .scalar (.string "x")

/-! ## Losses -/

/-- Exact rules lose values of invertible types in each of the four ways, without any limits: by
    telling a field from a parameter, by looking at a value late, by relying on a member that does
    not travel, and, without any rule, after a context at a site that stands for something else. -/
theorem exact_rules_lose :
    orchards.Throughout orchards.Invertible (.named "Orchard") ∧
      orchard.Typed orchards (.named "Orchard") ∧
      pairs.Throughout pairs.Invertible Catalogue.pair ∧ pair.Typed pairs Catalogue.pair ∧
      (ExactRules orchards {} [fieldwise] [] ∧
        (build orchards {} [fieldwise]).Loses (build orchards {} [fieldwise]).start orchard) ∧
      (ExactRules orchards {} [hasty] [] ∧
        (build orchards {} [hasty]).Loses (build orchards {} [hasty]).start orchard) ∧
      (ExactRules orchards {} [] [digesting] ∧
        (build orchards {} [] [digesting]).Loses (build orchards {} [] [digesting]).start orchard) ∧
      ExactRules pairs {} [] [] ∧
        (build pairs {}).Loses
          ((Call.encodeContext misplaced).run (build pairs {}) (build pairs {}).start).2 pair := by
  have fields := loses_of_lost? (build orchards {} [fieldwise])
    (build orchards {} [fieldwise]).start orchard (.extraData 11) (by decide +kernel)
  have late := loses_of_lost? (build orchards {} [hasty])
    (build orchards {} [hasty]).start orchard (.extraData 11) (by decide +kernel)
  have forgotten := loses_of_lost? (build orchards {} [] [digesting])
    (build orchards {} [] [digesting]).start orchard (.custom "bad digest") (by decide +kernel)
  have misled := loses_of_lost? (build pairs {})
    ((Call.encodeContext misplaced).run (build pairs {}) (build pairs {}).start).2 pair
    (.field Catalogue.pair.name "a" (.unexpectedNull Ty.i32.name)) (by decide +kernel)
  have none : ExactRules pairs {} [] [] := ⟨List.forall_mem_nil _, List.forall_mem_nil _⟩
  exact ⟨orchards_invertible, orchard_typed, pairs_invertible, pair_typed,
    ⟨exact_fieldwise, fields⟩, ⟨exact_hasty, late⟩, ⟨exact_digesting, forgotten⟩, none, misled⟩

end Serializer

end Wireform
