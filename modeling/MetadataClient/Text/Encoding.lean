/-! Text as bytes. Stored documents are byte lists; their text is UTF-8 and a byte
list is text only if it is the encoding of some string. -/
namespace MetadataClient

abbrev Bytes := List UInt8

namespace Bytes

def ofString (text : String) : Bytes :=
  text.toByteArray.data.toList

def toString? (bytes : Bytes) : Option String :=
  String.fromUTF8? ⟨bytes.toArray⟩

theorem toString?_ofString (text : String) : toString? (ofString text) = some text := by
  have valid : ByteArray.IsValidUTF8 ⟨(ofString text).toArray⟩ := text.isValidUTF8
  simp only [toString?, String.fromUTF8?, valid, dite_true]
  rfl

theorem ofString_eq_flatMap (text : String) :
    ofString text = text.toList.flatMap String.utf8EncodeChar := by
  obtain ⟨chars, rfl⟩ : ∃ chars, text = String.ofList chars := ⟨text.toList, by simp⟩
  simp only [ofString, String.toList_ofList]
  change (List.utf8Encode chars).data.toList = _
  simp [List.utf8Encode]

end Bytes
end MetadataClient
