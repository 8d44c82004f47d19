import Wakaama.Core.ServerList
import Wakaama.Data.Cbor

/-!
# The registration payload (`core/objects.c`)

`object_getRegisterPayloadBufferLength` adds up the length of the object list in the CoRE link
format, `object_getRegisterPayload` writes it into a buffer. A writer is given the text that is
in the buffer before `index` and returns the text before the new `index`.
-/

namespace Wakaama

variable {Node : Type}

/-- `REG_START`: `<`. -/
def regStart : List UInt8 := [60]

/-- `REG_DEFAULT_PATH`: `/`. -/
def regDefaultPath : List UInt8 := [47]

/-- `REG_LWM2M_RESOURCE_TYPE` of a client with SenML CBOR: `>;rt="oma.lwm2m";ct=112,`. -/
def regLwm2mResourceType : List UInt8 :=
  [62, 59, 114, 116, 61, 34, 111, 109, 97, 46, 108, 119, 109, 50, 109, 34, 59, 99, 116, 61, 49, 49,
    50, 44]

/-- `REG_OBJECT_MIN_LEN`: `</n>,`. -/
def regObjectMinLen : Nat := 5

/-- `REG_PATH_END`: `>,`. -/
def regPathEnd : List UInt8 := [62, 44]

/-- `REG_VERSION_START`: `>;ver=`. -/
def regVersionStart : List UInt8 := [62, 59, 118, 101, 114, 61]

/-- `REG_DELIMITER`: `,`. -/
def regDelimiter : UInt8 := 44

/-- `LWM2M_OSCORE_OBJECT_ID`. -/
def lwm2mOscoreObjectId : UInt16 := 21

/-- The alternate path, or the default where it is NULL or empty. -/
def registerPath : Option (List UInt8) → List UInt8
  | some (first :: rest) => first :: rest
  | _ => regDefaultPath

/-- An id as `utils_intToText` writes it. -/
def idToText (id : UInt16) (length : Nat) : List UInt8 := utilsIntToText id.toUInt64.toInt64 length

/-- `prv_getObjectTemplate`: `</id/`; -1 is `none`. -/
def prvGetObjectTemplate (length : Nat) (id : UInt16) : Option (List UInt8) :=
  if length < regObjectMinLen then none
  else
    let text := idToText id (length - 2)
    if text = [] then none
    else if length - (2 + text.length) < regObjectMinLen - 3 then none
    else some (60 :: 47 :: text ++ [47])

/-- The buffer that the numbers are written to on trial. -/
def registerScratch : Nat := regObjectMinLen + 5

/-- The loop over the instances. -/
def instancesLength (start length : Nat) : List UInt16 → Nat → Option Nat
  | [], index => some index
  | id :: next, index =>
    let index := if index ≠ start + length then index + length else index
    let text := idToText id registerScratch
    if text = [] then none
    else instancesLength start length next (index + text.length + regPathEnd.length)

/-- The body of the loop over the objects. -/
def objectLength (ident : Node → UInt16) (object : Lwm2mObject Node) (index : Nat) : Option Nat :=
  (prvGetObjectTemplate registerScratch object.objID).bind fun template =>
    let ids := object.instanceList.map ident
    let length := template.length
    if object.versionMajor ≠ 0 ∨ object.versionMinor ≠ 0 then
      let index := index + length - 1 + regVersionStart.length +
        (utilsUintToText object.versionMajor.toUInt64 registerScratch).length + 1 +
        (utilsUintToText object.versionMinor.toUInt64 registerScratch).length + 1
      if ids = [] then some index else instancesLength index length ids (index + length)
    else if ids = [] then some (index + length - 1 + regPathEnd.length)
    else instancesLength index length ids (index + length)

/-- The loop over the objects. -/
def objectsLength (ident : Node → UInt16) : List (Lwm2mObject Node) → Nat → Option Nat
  | [], index => some index
  | object :: next, index =>
    if object.objID = lwm2mSecurityObjectId then objectsLength ident next index
    else if object.objID = lwm2mOscoreObjectId then objectsLength ident next index
    else (objectLength ident object index).bind (objectsLength ident next)

/-- `object_getRegisterPayloadBufferLength`; the `size_t` is returned as an `int`. -/
def objectGetRegisterPayloadBufferLength (ident : Node → UInt16) (altPath : Option (List UInt8))
    (objectList : List (Lwm2mObject Node)) : Int :=
  match objectsLength ident objectList
      (regStart.length + (registerPath altPath).length + regLwm2mResourceType.length) with
  | none => 0
  | some index => intOfSize (index + 1)

/-- Why there is no text: the function returns 0, or it leaves the buffer. -/
inductive WriteStop where
  | refused
  | fault (fault : Fault)
  deriving DecidableEq, Repr

/-- `bufferLen - index`. -/
def roomBehind (bufferLen : Nat) (text : List UInt8) : Except WriteStop Nat :=
  if text.length ≤ bufferLen then .ok (bufferLen - text.length) else .error (.fault .outOfBounds)

/-- `utils_strncpy` of a whole string: what it leaves before the length it returns. The last byte
of a buffer that is full becomes NUL. -/
def utilsStrncpy (length : Nat) (str : List UInt8) : List UInt8 :=
  if 0 < length ∧ length ≤ str.length then str.take (length - 1) else str.take length

/-- `utils_stringCopy` at `index`, with its result as an `int`. -/
def writeString (bufferLen : Nat) (str text : List UInt8) : Except WriteStop (List UInt8) := do
  let room ← roomBehind bufferLen text
  let copied := utilsStrncpy room str
  let result := intOfSize copied.length
  if result < 0 then .error .refused else .ok (text ++ copied.take result.toNat)

/-- The template at `index`. -/
def writeTemplate (bufferLen : Nat) (id : UInt16) (text : List UInt8) :
    Except WriteStop (List UInt8) := do
  let room ← roomBehind bufferLen text
  match prvGetObjectTemplate room id with
  | none => .error .refused
  | some template => .ok (text ++ template)

/-- `utils_uintToText` at `index`, for a version number; a number that does not fit writes
nothing, and this is not looked at. -/
def writeVersionNumber (bufferLen : Nat) (number : UInt8) (text : List UInt8) :
    Except WriteStop (List UInt8) := do
  let room ← roomBehind bufferLen text
  .ok (text ++ utilsUintToText number.toUInt64 room)

/-- `utils_intToText` at `index`, for an instance id. -/
def writeId (bufferLen : Nat) (id : UInt16) (text : List UInt8) :
    Except WriteStop (List UInt8) := do
  let room ← roomBehind bufferLen text
  let digits := idToText id room
  if digits = [] then .error .refused else .ok (text ++ digits)

/-- `if (index >= bufferLen) return 0; buffer[index++] = character;` -/
def writeByte (bufferLen : Nat) (character : UInt8) (text : List UInt8) :
    Except WriteStop (List UInt8) :=
  if bufferLen ≤ text.length then .error .refused else .ok (text ++ [character])

/-- The template copied from `start` to `index`. -/
def copyTemplate (bufferLen start length : Nat) (text : List UInt8) :
    Except WriteStop (List UInt8) := do
  let room ← roomBehind bufferLen text
  if room ≤ length then .error .refused else .ok (text ++ (text.drop start).take length)

/-- The loop over the instances; the first one follows the template that is there. -/
def writeInstances (bufferLen start length : Nat) :
    List UInt16 → List UInt8 → Except WriteStop (List UInt8)
  | [], text => .ok text
  | id :: next, text => do
    let text ←
      if text.length ≠ start + length then copyTemplate bufferLen start length text else .ok text
    let text ← writeId bufferLen id text
    let text ← writeString bufferLen regPathEnd text
    writeInstances bufferLen start length next text

/-- The version attribute; the `/` of the template gives way to it. -/
def writeVersion (bufferLen : Nat) (object : Lwm2mObject Node) (text : List UInt8) :
    Except WriteStop (List UInt8) := do
  let text ← writeString bufferLen regVersionStart text
  let text ← writeVersionNumber bufferLen object.versionMajor text
  let text ← writeByte bufferLen 46 text
  let text ← writeVersionNumber bufferLen object.versionMinor text
  writeByte bufferLen regDelimiter text

/-- The body of the loop over the objects. -/
def writeObject (ident : Node → UInt16) (bufferLen : Nat) (object : Lwm2mObject Node)
    (text : List UInt8) : Except WriteStop (List UInt8) := do
  let ids := object.instanceList.map ident
  let withTemplate ← writeTemplate bufferLen object.objID text
  if object.versionMajor ≠ 0 ∨ object.versionMinor ≠ 0 then
    let versioned ← writeVersion bufferLen object withTemplate.dropLast
    if ids = [] then .ok versioned
    else
      let again ← writeTemplate bufferLen object.objID versioned
      writeInstances bufferLen versioned.length (again.length - versioned.length) ids again
  else if ids = [] then writeString bufferLen regPathEnd withTemplate.dropLast
  else writeInstances bufferLen text.length (withTemplate.length - text.length) ids withTemplate

/-- The loop over the objects. Only the Security object is passed over. -/
def writeObjects (ident : Node → UInt16) (bufferLen : Nat) :
    List (Lwm2mObject Node) → List UInt8 → Except WriteStop (List UInt8)
  | [], text => .ok text
  | object :: next, text =>
    if object.objID = lwm2mSecurityObjectId then writeObjects ident bufferLen next text
    else writeObject ident bufferLen object text >>= writeObjects ident bufferLen next

/-- The end: the trailing comma is replaced by NUL. -/
def closePayload (bufferLen : Nat) (text : List UInt8) : Except WriteStop (List UInt8) :=
  if text.dropLast.length < bufferLen then .ok text.dropLast else .error (.fault .outOfBounds)

/-- `object_getRegisterPayload`: the payload. The result is its length. -/
def objectGetRegisterPayload (ident : Node → UInt16) (altPath : Option (List UInt8))
    (objectList : List (Lwm2mObject Node)) (bufferLen : Nat) : Except WriteStop (List UInt8) := do
  let text ← writeString bufferLen regStart []
  let text ← writeString bufferLen (registerPath altPath) text
  let text ← writeString bufferLen regLwm2mResourceType text
  let text ← writeObjects ident bufferLen objectList text
  closePayload bufferLen text

end Wakaama
