import Mathlib.Data.List.Basic

/-!
# `SubscriptionId`: equality, order and hash

A `SubscriptionId` (Subscription.hpp) is a pointer `mThisPtr` that is only compared, a class id
`mClassId` that is `NULL` or a C string, and a `std::string` `mUniqueId`. `operator==` and
`operator<` compare the class ids with `strcmp` and the unique ids as strings; `Hasher` feeds the
pointers themselves to `HASH`, defined in HashMap.hpp outside `src/`.

Bytes are `UInt8`: `strcmp` and `std::string`'s comparison both compare characters as
`unsigned char`. A pointer is an address, `0` standing for `NULL`.
-/

namespace Iridium.Task

/-- The characters of a C string before its terminating `NUL`. -/
structure CString where
  /-- The characters. -/
  bytes : List UInt8
  /-- None of them is `NUL`. -/
  no_nul : (0 : UInt8) ∉ bytes

/-- A `const char *`: `NULL`, or an address at which a C string lies. -/
inductive CStrPtr where
  | null
  | ptr (addr : Nat) (str : CString)

/-- A `std::string`: its characters, and the address of the buffer `c_str()` returns. -/
structure StdString where
  /-- The characters, `NUL`s included. -/
  chars : List UInt8
  /-- The address of the character buffer. -/
  buffer : Nat

/-- `c_str()`: the buffer, read as a C string up to its first `NUL`. -/
def StdString.cStr (s : StdString) : CStrPtr :=
  .ptr s.buffer ⟨s.chars.takeWhile (· != 0), fun h => by simpa using List.mem_takeWhile_imp h⟩

/-- `strcmp` on the characters of two C strings: the difference of the first two characters that
differ, the terminator counting as `0`; `0` when there is none. Callers read only its sign. -/
def strcmp : List UInt8 → List UInt8 → Int
  | [], [] => 0
  | [], b :: _ => -b.toNat
  | a :: _, [] => a.toNat
  | a :: as, b :: bs => if a = b then strcmp as bs else a.toNat - b.toNat

/-- `std::string::operator<`: the first characters that differ decide, a proper prefix comes
first. -/
def stringLt : List UInt8 → List UInt8 → Bool
  | [], [] => false
  | [], _ :: _ => true
  | _ :: _, [] => false
  | a :: as, b :: bs => if a = b then stringLt as bs else a.toNat < b.toNat

/-- `SubscriptionId`. -/
structure SubscriptionId where
  /-- `mThisPtr`: never dereferenced. -/
  thisPtr : Nat
  /-- `mClassId`. -/
  classId : CStrPtr
  /-- `mUniqueId`. -/
  uniqueId : StdString

namespace SubscriptionId

/-- `SubscriptionId::operator==` (Subscription.hpp, lines 66-77). -/
def eq (x other : SubscriptionId) : Bool :=
  if x.thisPtr ≠ other.thisPtr then false
  else match x.classId, other.classId with
    | .null, .null => x.uniqueId.chars == other.uniqueId.chars
    | .null, .ptr _ _ | .ptr _ _, .null => false
    | .ptr _ a, .ptr _ b =>
      if strcmp a.bytes b.bytes ≠ 0 then false else x.uniqueId.chars == other.uniqueId.chars

/-- `SubscriptionId::operator<` (lines 79-95). -/
def lt (x other : SubscriptionId) : Bool :=
  if x.thisPtr = other.thisPtr then
    match x.classId, other.classId with
    | .null, .ptr _ _ => true
    | .null, .null | .ptr _ _, .null => false
    | .ptr _ a, .ptr _ b =>
      let cmp := strcmp a.bytes b.bytes
      if cmp = 0 then stringLt x.uniqueId.chars other.uniqueId.chars else cmp < 0
  else x.thisPtr < other.thisPtr

/-- `SubscriptionId::Hasher` (lines 123-129) over the functors `HASH<intptr_t>` and
`HASH<const char *>`; the `size_t` sum is returned as an `int`, its low 32 bits. -/
def hasher (hashIntptr : Nat → UInt64) (hashCStr : CStrPtr → UInt64) (sid : SubscriptionId) :
    UInt32 :=
  (hashIntptr sid.thisPtr * 43 + hashCStr sid.classId * 41 + hashCStr sid.uniqueId.cStr).toUInt32

end SubscriptionId

end Iridium.Task
