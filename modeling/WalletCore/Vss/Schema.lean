import WalletCore.Lib.Protobuf
import WalletCore.Lib.Utf8
import WalletCore.Vss.Wire

/-! # The messages of the storage service

The messages about objects and listings, field by field.
-/

namespace WalletCore.Vss

open Lib Lib.Protobuf

namespace Schema

def textField (number : Nat) (text : String) : List (Nat × Value) := bytesField number (utf8 text.toList)

def readText (bytes : List UInt8) : Option String := (fromUtf8 bytes).map String.ofList

def versionField (number : Nat) (version : Int64) : List (Nat × Value) := varintField number version.toUInt64.toNat

def readVersion (n : Nat) : Int64 := (UInt64.ofNat n).toInt64

def encodeKeyValue (kv : KeyValue) : List UInt8 :=
  encode (textField 1 kv.key ++ versionField 2 kv.version ++ bytesField 3 kv.value)

def decodeKeyValue (content : List UInt8) : Option KeyValue := do
  let fields ← decode content
  let key ← readText (bytesOr [] (last 1 fields))
  some ⟨key, readVersion (varintOr 0 (last 2 fields)), bytesOr [] (last 3 fields)⟩

def encodeGetObjectResponse (response : GetObjectResponse) : List UInt8 :=
  encode (response.value.toList.map fun kv => (2, .bytes (encodeKeyValue kv)))

def decodeGetObjectResponse (content : List UInt8) : Option GetObjectResponse := do
  let fields ← decode content
  match last 2 fields with
  | some (.bytes content) => (decodeKeyValue content).map fun kv => ⟨some kv⟩
  | _ => some ⟨none⟩

def numberOf : ErrorCode → Nat
  | .unknown => 0
  | .conflictException => 1
  | .invalidRequestException => 2
  | .internalServerException => 3
  | .noSuchKeyException => 4
  | .authException => 5

/-- A number that names no code is an unknown error. -/
def codeOf : Nat → ErrorCode
  | 1 => .conflictException
  | 2 => .invalidRequestException
  | 3 => .internalServerException
  | 4 => .noSuchKeyException
  | 5 => .authException
  | _ => .unknown

def encodeErrorResponse (response : ErrorResponse) : List UInt8 :=
  encode (varintField 1 (numberOf response.errorCode) ++ textField 2 response.message)

def decodeErrorResponse (content : List UInt8) : Option ErrorResponse := do
  let fields ← decode content
  let message ← readText (bytesOr [] (last 2 fields))
  some ⟨codeOf (varintOr 0 (last 1 fields)), message⟩

def decodeListKeyVersionsResponse (content : List UInt8) : Option ListKeyVersionsResponse := do
  let fields ← decode content
  let keyVersions ← (fields.filter fun field => field.1 == 1).mapM fun field => decodeKeyValue (bytesOr [] (some field.2))
  let nextPageToken ← (last 2 fields).mapM fun token => readText (bytesOr [] (some token))
  some ⟨keyVersions, nextPageToken, (last 3 fields).map fun version => readVersion (varintOr 0 (some version))⟩

theorem readText_utf8 (text : String) : readText (utf8 text.toList) = some text := by
  rw [readText, fromUtf8_eq_some.mpr rfl, Option.map_some, String.ofList_toList]

theorem readVersion_toNat (version : Int64) : readVersion version.toUInt64.toNat = version := by
  rw [readVersion, UInt64.ofNat_toNat]
  rfl

theorem decode_keyValue (kv : KeyValue) : decodeKeyValue (encodeKeyValue kv) = some kv := by
  have hKey : bytesOr [] (last 1 (textField 1 kv.key ++ versionField 2 kv.version ++ bytesField 3 kv.value)) =
      utf8 kv.key.toList := by
    rw [last_append_left fun field hField => by rw [bytesField_number field hField]; decide,
      last_append_left fun field hField => by rw [varintField_number field hField]; decide]
    exact bytesOr_last 1 _
  have hVersion : varintOr 0 (last 2 (textField 1 kv.key ++ versionField 2 kv.version ++ bytesField 3 kv.value)) =
      kv.version.toUInt64.toNat := by
    rw [last_append_left fun field hField => by rw [bytesField_number field hField]; decide,
      last_append_right fun field hField => by rw [bytesField_number field hField]; decide]
    exact varintOr_last 2 _
  have hValue : bytesOr [] (last 3 (textField 1 kv.key ++ versionField 2 kv.version ++ bytesField 3 kv.value)) =
      kv.value := by
    rw [List.append_assoc, last_append_right fun field hField => by rw [bytesField_number field hField]; decide,
      last_append_right fun field hField => by rw [varintField_number field hField]; decide]
    exact bytesOr_last 3 _
  rw [decodeKeyValue, encodeKeyValue, decode_encode, Option.bind_eq_bind, Option.bind_some, hKey, hVersion, hValue,
    readText_utf8, readVersion_toNat]
  rfl

theorem decode_getObjectResponse (response : GetObjectResponse) :
    decodeGetObjectResponse (encodeGetObjectResponse response) = some response := by
  obtain ⟨_ | kv⟩ := response
  · rfl
  · rw [decodeGetObjectResponse, encodeGetObjectResponse, decode_encode, Option.bind_eq_bind, Option.bind_some]
    change (decodeKeyValue (encodeKeyValue kv)).map _ = _
    rw [decode_keyValue]
    rfl

theorem codeOf_numberOf (code : ErrorCode) : codeOf (numberOf code) = code := by
  cases code <;> rfl

theorem decode_errorResponse (response : ErrorResponse) :
    decodeErrorResponse (encodeErrorResponse response) = some response := by
  have hCode : varintOr 0 (last 1 (varintField 1 (numberOf response.errorCode) ++ textField 2 response.message)) =
      numberOf response.errorCode := by
    rw [last_append_left fun field hField => by rw [bytesField_number field hField]; decide]
    exact varintOr_last 1 _
  have hMessage : bytesOr [] (last 2 (varintField 1 (numberOf response.errorCode) ++ textField 2 response.message)) =
      utf8 response.message.toList := by
    rw [last_append_right fun field hField => by rw [varintField_number field hField]; decide]
    exact bytesOr_last 2 _
  rw [decodeErrorResponse, encodeErrorResponse, decode_encode, Option.bind_eq_bind, Option.bind_some, hCode, hMessage,
    readText_utf8, codeOf_numberOf]
  rfl

end Schema

def vssFormat : ObjectFormat where
  decodeListKeyVersionsResponse content :=
    match Schema.decodeListKeyVersionsResponse content with
    | some response => .ok response
    | none => .error "failed to decode Protobuf message"
  decodeErrorResponse := Schema.decodeErrorResponse
  encodeGetObjectResponse := Schema.encodeGetObjectResponse
  encodeErrorResponse := Schema.encodeErrorResponse
  decodeGetObjectResponse content :=
    match Schema.decodeGetObjectResponse content with
    | some response => .ok response
    | none => .error "failed to decode Protobuf message"
  decode_getObjectResponse response := by rw [Schema.decode_getObjectResponse]
  decode_errorResponse := Schema.decode_errorResponse

end WalletCore.Vss
