/-!
# Texts as bytes

Files hold bytes. `utf8` writes a text as UTF-8, `ofUtf8?` reads it back and refuses bytes that
are no UTF-8 (`ofUtf8?_utf8`).
-/

namespace ItemGuard

/-- The content of a file. -/
abbrev Bytes := List UInt8

namespace Text

def utf8 (s : String) : Bytes :=
  s.toList.flatMap String.utf8EncodeChar

/-- The text that the bytes are in UTF-8. -/
def ofUtf8? (bytes : Bytes) : Option String :=
  String.fromUTF8? bytes.toByteArray

theorem toByteArray_utf8 (s : String) : (utf8 s).toByteArray = s.toByteArray := by
  have h := @String.toByteArray_ofList s.toList
  simp only [String.ofList_toList, List.utf8Encode] at h
  exact h.symm

theorem length_utf8 (s : String) : (utf8 s).length = s.utf8ByteSize := by
  have h := congrArg ByteArray.size (toByteArray_utf8 s)
  rwa [List.size_toByteArray] at h

theorem ofUtf8?_utf8 (s : String) : ofUtf8? (utf8 s) = some s := by
  simp [ofUtf8?, toByteArray_utf8, String.fromUTF8?, s.isValidUTF8, String.fromUTF8]

end Text
end ItemGuard
