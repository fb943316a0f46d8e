/-!
# The order of texts

Texts are ordered as the bytes that they are stored in: the first byte that differs decides, and
what a text begins with comes before it.
-/
namespace ObjectVM.Text

/-- The bytes that a text is stored in. -/
def bytes (s : String) : List UInt8 := s.toUTF8.data.toList

/-- How two texts are ordered. -/
def order (s t : String) : Ordering := List.compareLex compare (bytes s) (bytes t)

end ObjectVM.Text
