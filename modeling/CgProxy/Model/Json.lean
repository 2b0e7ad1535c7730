import CgProxy.Model.Common
import Mathlib.Data.Rat.Floor

/-! # The JSON values the program reads

The library nlohmann::json is outside the repository. Its values, conversions and exceptions are
modelled as far as the program uses them; the text parser and printer stay parameters (see `Host`).
Numbers keep the three kinds of the library. An object is its members in the order of `items()`.
-/

namespace CgProxy

/-- The exceptions that can leave a library call. The first three derive from `std::exception`
only, so a handler for `std::out_of_range` does not see `jsonOutOfRange`. -/
inductive Exn where
  | parseError
  | typeError
  | jsonOutOfRange
  | stdOutOfRange
deriving DecidableEq, Repr

inductive Json where
  | null
  | boolean (b : Bool)
  | numberInteger (i : ℤ)
  | numberUnsigned (n : ℕ)
  | numberFloat (q : ℚ)
  | string (s : Str)
  | array (elems : List Json)
  | object (members : List (Str × Json))

/-- `static_cast<int>` of a 64-bit integer. -/
def toInt32 (i : ℤ) : ℤ := i.bmod (2 ^ 32)

/-- `static_cast<int>` of a double: truncation, and the smallest `int` outside the range, as the
conversion instruction of the supported processors yields it. -/
def truncInt32 (q : ℚ) : ℤ :=
  let t := if q < 0 then ⌈q⌉ else ⌊q⌋
  if -2 ^ 31 ≤ t ∧ t < 2 ^ 31 then t else -2 ^ 31

namespace Json

def isString : Json → Bool
  | .string _ => true
  | _ => false

def isArray : Json → Bool
  | .array _ => true
  | _ => false

def isBoolean : Json → Bool
  | .boolean _ => true
  | _ => false

/-- `get<int>()` accepts every number and also a boolean. -/
def getInt : Json → Except Exn ℤ
  | .numberInteger i => .ok (toInt32 i)
  | .numberUnsigned n => .ok (toInt32 n)
  | .numberFloat q => .ok (truncInt32 q)
  | .boolean b => .ok (if b then 1 else 0)
  | _ => .error .typeError

def getBool : Json → Except Exn Bool
  | .boolean b => .ok b
  | _ => .error .typeError

def getString : Json → Except Exn Str
  | .string s => .ok s
  | _ => .error .typeError

/-- `get<vector<string>>()`. -/
def getStrings : Json → Except Exn (List Str)
  | .array elems => elems.mapM getString
  | _ => .error .typeError

/-- `at(key)`. -/
def at? (key : Str) : Json → Except Exn Json
  | .object members =>
      match members.lookup key with
      | some value => .ok value
      | none => .error .jsonOutOfRange
  | _ => .error .typeError

/-- The pairs `items()` iterates over. Array elements are keyed by their index, a primitive value
is one item with an empty key, and null has none. -/
def items : Json → List (Str × Json)
  | .null => []
  | .object members => members
  | .array elems => elems.mapIdx fun i value => (Nat.toDigits 10 i, value)
  | primitive => [([], primitive)]

/-! ## Building and reading back -/

/-- `members[key] = value` on the sorted map that an object is. -/
def insertMember (key : Str) (value : Json) : List (Str × Json) → List (Str × Json)
  | [] => [(key, value)]
  | (k, v) :: rest =>
      if key = k then (k, value) :: rest
      else if key < k then (key, value) :: (k, v) :: rest
      else (k, v) :: insertMember key value rest

/-- The object that assignments `j[key] = value` make of an empty `j`, one after the other. -/
def assigned (pairs : List (Str × Json)) : Json :=
  .object (pairs.foldl (fun members pair => insertMember pair.1 pair.2 members) [])

mutual

/-- What the text of a value is read back as: a number without a sign is read as unsigned. -/
def reparsed : Json → Json
  | .numberInteger i => if 0 ≤ i then .numberUnsigned i.toNat else .numberInteger i
  | .array elems => .array (reparsedElems elems)
  | .object members => .object (reparsedMembers members)
  | other => other

def reparsedElems : List Json → List Json
  | [] => []
  | value :: rest => reparsed value :: reparsedElems rest

def reparsedMembers : List (Str × Json) → List (Str × Json)
  | [] => []
  | (key, value) :: rest => (key, reparsed value) :: reparsedMembers rest

end

section Building

variable {key : Str} {value : Json} {pairs : List (Str × Json)}

theorem lookup_insertMember_self (members : List (Str × Json)) :
    (insertMember key value members).lookup key = some value := by
  induction members with
  | nil => simp [insertMember]
  | cons member rest ih =>
    rw [insertMember]
    split
    · next same => simp [same]
    split
    · simp
    · next other _ => rw [List.lookup_cons, beq_eq_false_iff_ne.mpr other, ih]

theorem lookup_insertMember_of_ne {other : Str} (differ : other ≠ key) (members : List (Str × Json)) :
    (insertMember key value members).lookup other = members.lookup other := by
  induction members with
  | nil => simp [insertMember, List.lookup_cons, beq_eq_false_iff_ne.mpr differ]
  | cons member rest ih =>
    obtain ⟨k, v⟩ := member
    rw [insertMember]
    split
    · next same => simp only [List.lookup_cons, ← same, beq_eq_false_iff_ne.mpr differ]
    split
    · rw [List.lookup_cons, beq_eq_false_iff_ne.mpr differ]
    · rw [List.lookup_cons, ih, List.lookup_cons]

theorem mem_insertMember {pair : Str × Json} {members : List (Str × Json)}
    (member : pair ∈ insertMember key value members) : pair = (key, value) ∨ pair ∈ members := by
  induction members with
  | nil => exact .inl (List.mem_singleton.mp member)
  | cons first rest ih =>
    rw [insertMember] at member
    split at member
    · next same =>
      rcases List.mem_cons.mp member with rfl | member
      · exact .inl (by rw [same])
      · exact .inr (List.mem_cons_of_mem _ member)
    split at member
    · exact List.mem_cons.mp member
    · rcases List.mem_cons.mp member with rfl | member
      · exact .inr List.mem_cons_self
      · rcases ih member with rfl | old
        · exact .inl rfl
        · exact .inr (List.mem_cons_of_mem _ old)

private theorem lookup_foldl_of_notMem {other : Str} (absent : other ∉ pairs.map Prod.fst)
    (members : List (Str × Json)) :
    (pairs.foldl (fun members pair => insertMember pair.1 pair.2 members) members).lookup other =
      members.lookup other := by
  induction pairs generalizing members with
  | nil => rfl
  | cons pair rest ih =>
    rw [List.map_cons, List.mem_cons, not_or] at absent
    rw [List.foldl_cons, ih absent.2, lookup_insertMember_of_ne absent.1]

private theorem lookup_foldl_of_mem (distinct : (pairs.map Prod.fst).Nodup) (member : (key, value) ∈ pairs)
    (members : List (Str × Json)) :
    (pairs.foldl (fun members pair => insertMember pair.1 pair.2 members) members).lookup key = some value := by
  induction pairs generalizing members with
  | nil => contradiction
  | cons pair rest ih =>
    rw [List.map_cons, List.nodup_cons] at distinct
    rcases List.mem_cons.mp member with rfl | member
    · rw [List.foldl_cons, lookup_foldl_of_notMem distinct.1, lookup_insertMember_self]
    · exact ih distinct.2 member _

/-- Every member of an object built with distinct keys is found under its key. -/
theorem at?_assigned (distinct : (pairs.map Prod.fst).Nodup) (member : (key, value) ∈ pairs) :
    (assigned pairs).at? key = .ok value := by
  simp only [assigned, at?, lookup_foldl_of_mem distinct member]

/-- It has no other members. -/
theorem mem_items_assigned {pair : Str × Json} (member : pair ∈ (assigned pairs).items) : pair ∈ pairs := by
  suffices general : ∀ members, pair ∈ pairs.foldl (fun members pair => insertMember pair.1 pair.2 members) members →
      pair ∈ pairs ∨ pair ∈ members from (general [] member).resolve_right List.not_mem_nil
  clear member
  intro members member
  induction pairs generalizing members with
  | nil => exact .inr member
  | cons first rest ih =>
    rcases ih _ member with later | inserted
    · exact .inl (List.mem_cons_of_mem _ later)
    · rcases mem_insertMember inserted with rfl | old
      · exact .inl List.mem_cons_self
      · exact .inr old

/-- Reading a text back keeps the keys. -/
theorem at?_reparsed (j : Json) (key : Str) : j.reparsed.at? key = (j.at? key).map reparsed := by
  cases j with
  | object members =>
    have found : (reparsedMembers members).lookup key = (members.lookup key).map reparsed := by
      induction members with
      | nil => rfl
      | cons member rest ih =>
        obtain ⟨k, v⟩ := member
        rw [reparsedMembers, List.lookup_cons, List.lookup_cons, ih]
        split <;> rfl
    simp only [reparsed, at?, found]
    cases members.lookup key <;> rfl
  | numberInteger i =>
    rw [reparsed]
    split <;> rfl
  | _ => rfl

theorem mem_items_reparsed_assigned {pair : Str × Json} (member : pair ∈ (assigned pairs).reparsed.items) :
    ∃ value, (pair.1, value) ∈ pairs ∧ pair.2 = value.reparsed := by
  have back {members : List (Str × Json)} (member : pair ∈ reparsedMembers members) :
      ∃ value, (pair.1, value) ∈ members ∧ pair.2 = value.reparsed := by
    induction members with
    | nil => contradiction
    | cons first rest ih =>
      rcases List.mem_cons.mp member with rfl | member
      · exact ⟨_, List.mem_cons_self, rfl⟩
      · obtain ⟨value, old, same⟩ := ih member
        exact ⟨value, List.mem_cons_of_mem _ old, same⟩
  obtain ⟨value, old, same⟩ := back member
  exact ⟨value, mem_items_assigned old, same⟩

theorem reparsed_strings (l : List Str) : (array (l.map string)).reparsed = array (l.map string) := by
  rw [reparsed]
  congr 1
  induction l with
  | nil => rfl
  | cons s rest ih =>
    rw [List.map_cons, reparsedElems, ih]
    rfl

end Building

theorem mem_items_of_at? {key : Str} {j value : Json} (found : j.at? key = .ok value) :
    (key, value) ∈ j.items := by
  cases j with
  | object members =>
    simp only [at?] at found
    split at found
    · next hit =>
      cases found
      obtain ⟨front, back, shape, -⟩ := List.lookup_eq_some_iff.mp hit
      simp [items, shape]
    · contradiction
  | _ => contradiction

end Json

end CgProxy
