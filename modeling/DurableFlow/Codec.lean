import DurableFlow.Bytes
import DurableFlow.FlowError

/-! # Codecs

A codec turns the values of one type into octets and back. It knows the name of its type, so that
an error says which value did not fit.
-/

namespace DurableFlow

/-- How the values of a type are written as octets and read back. -/
structure Codec (α : Type) where
  typeName : String
  write : α → Except String Bytes
  read : Bytes → Except String α

namespace Codec

variable {α : Type}

/-- Put what was attempted before the cause of an error. -/
def context (attempt cause : String) : String :=
  if cause.isEmpty then attempt else attempt ++ ": " ++ cause

def encode (codec : Codec α) (value : α) : Except String Bytes :=
  (codec.write value).mapError (context ("encoding " ++ codec.typeName))

def decode (codec : Codec α) (bytes : Bytes) : Except String α :=
  (codec.read bytes).mapError
    (context ("decoding " ++ codec.typeName ++ " from " ++ toString bytes.length ++ " bytes"))

/-- The octets of a value, as flow logic asks for them. -/
def encodePayload (codec : Codec α) (value : α) : Except FlowError Bytes :=
  (codec.encode value).mapError .payload

/-- The value of octets, as flow logic asks for it. -/
def decodePayload (codec : Codec α) (bytes : Bytes) : Except FlowError α :=
  (codec.decode bytes).mapError .payload

/-- The low octets of a natural number, the highest first. -/
def bigEndian : Nat → Nat → Bytes
  | 0, _ => []
  | width + 1, n => UInt8.ofNat (n >>> (8 * width)) :: bigEndian width n

/-- Natural numbers as a fixed number of octets, the highest first. -/
def fixed (typeName : String) (width : Nat) : Codec Nat where
  typeName
  write n := .ok (bigEndian width n)
  read bytes :=
    if bytes.length = width then .ok (bytes.foldl (fun n b => 256 * n + b.toNat) 0)
    else .error ("expected " ++ toString width ++ " bytes, got " ++ toString bytes.length)

end Codec

end DurableFlow
