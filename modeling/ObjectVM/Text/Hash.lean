/-!
# The 64-bit FNV-1a hash

Attribute names and values are hashed byte by byte: exclusive or with the byte, then a product
modulo 2⁶⁴.
-/
namespace ObjectVM.Text

/-- FNV-1a of a byte string. -/
def fnv1a (bytes : List UInt8) : UInt64 :=
  bytes.foldl (fun hash b => (hash ^^^ b.toUInt64) * 0x100000001b3) 0xcbf29ce484222325

/-- FNV-1a of the UTF-8 bytes of a text. -/
def hash (s : String) : UInt64 := fnv1a s.toUTF8.toList

end ObjectVM.Text
