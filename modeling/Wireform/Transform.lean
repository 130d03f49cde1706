import Wireform.Codec

/-!
# Transforms

A transform wraps the codecs of the contexts that it applies to. Transforms look
at the context only, never at the codec that they wrap, and every one that applies
is put around the result of those registered before it. The first transform of
every serializer gives a presence flag to nullable contexts.
-/

namespace Wireform

/-- A rule that wraps the codecs of the contexts it applies to. -/
structure Transform where
  applies : Context → Bool
  wrap : Codec → Codec

namespace Transform

/-- A presence flag for every nullable context. -/
def nullable : Transform where
  applies := Context.isNullable
  wrap := Codec.nullable

/-- The codec with every transform that applies put around it, in order. -/
def applyAll (transforms : List Transform) (context : Context) (codec : Codec) : Codec :=
  transforms.foldl
    (fun codec transform => if transform.applies context then transform.wrap codec else codec)
    codec

end Transform

end Wireform
