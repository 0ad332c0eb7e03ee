import PhysHarness.Lib.JsonRead

/-!
Byte strings, their hash, and what a decoder makes of them.

The decoder of JSON either gives a value, or names an error in the text, or gives up on a text whose
containers nest deeper than the interpreter recurses. Objects come back with each key once.
-/

abbrev Bytes := List UInt8

/-- SHA-256 of bytes, as a text of hexadecimal digits. -/
class ByteHash where
  sha256 : Bytes → String

/-- What `json.loads` makes of some bytes. -/
inductive Loaded where
  | value (value : Json)
  /-- `ValueError` -/
  | invalid (message : String)
  /-- `RecursionError` -/
  | tooDeep

/-- The decoders: `json.loads`, the reader behind `model_validate_json`, and `decode` with
`errors="replace"`; and `str` of a decoded value. -/
class Decoders where
  loads : Bytes → Loaded
  read : Bytes → Option Json
  decode : Bytes → String
  str : Json → String

namespace Bytes

/-- `text.encode("utf-8")` -/
def utf8 (text : String) : Bytes := text.toList.flatMap String.utf8EncodeChar

/-- `data.decode("utf-8")` -/
def text (data : Bytes) : Option String :=
  data.toByteArray.utf8Decode?.map fun chars => .ofList chars.toList

theorem text_utf8 (content : String) : text (utf8 content) = some content := by
  have encoded : (utf8 content).toByteArray = content.toList.utf8Encode := rfl
  rw [text, encoded, List.utf8Decode?_utf8Encode, Option.map_some, List.toList_toArray,
    String.ofList_toList]

/-- A text that was decoded is encoded as it was. -/
theorem utf8_of_text {data : Bytes} {content : String} (decoded : text data = some content) :
    utf8 content = data := by
  obtain ⟨chars, read, rfl⟩ := Option.map_eq_some_iff.mp decoded
  have encoded : data.toByteArray = chars.toList.utf8Encode := by
    obtain ⟨some_, same⟩ := Option.eq_some_iff_get_eq.mp read
    rw [← same, ByteArray.utf8Encode_get_utf8Decode?]
  have bytes : (utf8 (.ofList chars.toList)).toByteArray = data.toByteArray := by
    rw [encoded, utf8, String.toList_ofList]
    rfl
  simpa using congrArg (fun array => array.data.toList) bytes

def isSpace (byte : UInt8) : Bool := byte ∈ [0x20, 0x09, 0x0A, 0x0D, 0x0B, 0x0C]

/-- `not data.strip()` -/
def blank (data : Bytes) : Bool := data.all isSpace

theorem utf8_dumps (style : Json.Style) (value : Json) :
    utf8 (Json.dumps style value) = (Json.render style value).flatMap String.utf8EncodeChar := by
  rw [utf8, Json.dumps, String.toList_ofList]

/-- `value.to_bytes(width, "big")` -/
def bigEndian : Nat → Nat → Bytes
  | 0, _ => []
  | width + 1, value => bigEndian width (value / 256) ++ [UInt8.ofNat value]

/-- `int.from_bytes(data, "big")` -/
def ofBigEndian (data : Bytes) : Nat := data.foldl (fun value byte => 256 * value + byte.toNat) 0

@[simp] theorem length_bigEndian (width value : Nat) : (bigEndian width value).length = width := by
  induction width generalizing value with
  | zero => rfl
  | succ width ih => rw [bigEndian, List.length_append, ih, List.length_singleton]

theorem ofBigEndian_bigEndian {width value : Nat} (fits : value < 256 ^ width) :
    ofBigEndian (bigEndian width value) = value := by
  induction width generalizing value with
  | zero =>
    rw [pow_zero, Nat.lt_one_iff] at fits
    rw [fits]
    rfl
  | succ width ih =>
    have less : value / 256 < 256 ^ width := Nat.div_lt_of_lt_mul (by rwa [mul_comm, ← pow_succ])
    have high := ih less
    rw [ofBigEndian] at high
    have low : (UInt8.ofNat value).toNat = value % 256 := UInt8.toNat_ofNat'
    rw [ofBigEndian, bigEndian, List.foldl_append, high, List.foldl_cons, List.foldl_nil, low]
    exact Nat.div_add_mod value 256

end Bytes

/-- The decoders of texts whose depth is in their leading brackets. -/
@[reducible] def Decoders.plain [FloatReader] (limit : Nat) : Decoders where
  loads data :=
    if limit < (data.takeWhile fun byte => byte = 0x5B).length then .tooDeep
    else match data.text.bind Json.loads with
      | some value => .value value
      | none => .invalid "Expecting value"
  read data := data.text.bind Json.loads
  decode data := data.text.getD ""
  str value := Json.dumps {} value

theorem Decoders.plain_read [FloatReader] (limit : Nat) (style : Json.Style) (value : Json) :
    (Decoders.plain limit).read (Bytes.utf8 (Json.dumps style value)) = some value := by
  show (Bytes.utf8 (Json.dumps style value)).text.bind Json.loads = some value
  rw [Bytes.text_utf8, Option.bind_some, Json.loads_dumps]

/-- A scanner gives up on more opening brackets than its limit. -/
theorem Decoders.plain_brackets [FloatReader] {limit n : Nat} (deep : limit < n) :
    (Decoders.plain limit).loads (List.replicate n 0x5B) = .tooDeep := by
  have opened : (List.replicate n (0x5B : UInt8)).takeWhile (fun byte => byte = 0x5B) =
      List.replicate n 0x5B :=
    List.takeWhile_eq_self_iff.mpr fun byte member => by simp [List.eq_of_mem_replicate member]
  show (if limit < ((List.replicate n (0x5B : UInt8)).takeWhile fun byte => byte = 0x5B).length then _
    else _) = _
  rw [opened, List.length_replicate, if_pos deep]
