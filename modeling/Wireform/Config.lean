import Wireform.Range

/-!
# Limits and caching

The three ranges bound the lengths that a reader accepts, one range per kind of
length. They are consulted on reading only. `cacheCodecs` decides whether a
serializer remembers the codecs that it has resolved.
-/

namespace Wireform

/-- What a reader accepts and whether codecs are remembered. -/
structure Config where
  stringLengths : Range := .full
  byteLengths : Range := .full
  collectionLengths : Range := .full
  cacheCodecs : Bool := true
deriving DecidableEq, Repr

end Wireform
