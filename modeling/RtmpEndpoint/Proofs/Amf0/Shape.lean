import RtmpEndpoint.Amf0.Decode

/-!
# Values and what stands inside them

What a format with length prefixes has room for is a matter of each part of a value by itself; how
far the parts are nested is a matter of the whole.
-/

namespace RtmpEndpoint.Amf0.Value

/-- The value itself or one of the values inside it. -/
inductive Within : (part value : Value) → Prop where
  | self (value : Value) : Within value value
  | property {part value : Value} {name : String} {properties : Properties}
      (member : (name, value) ∈ properties) (inside : Within part value) :
      Within part (object properties)
  | element {part value : Value} {values : List Value} (member : value ∈ values)
      (inside : Within part value) : Within part (array values)

/-- `p` holds of the value and of every value inside it. -/
def Throughout (p : Value → Prop) (value : Value) : Prop :=
  ∀ part : Value, part.Within value → p part

/-! ## Conditions on one part -/

/-- The properties of an object are in order and have one entry per name. -/
def Ordered : Value → Prop
  | object properties => Properties.Sorted properties
  | _ => True

/-- No property has the empty name, which ends an object. -/
def Named : Value → Prop
  | object properties => ∀ entry ∈ properties, entry.1 ≠ ""
  | _ => True

/-- The length of text fits 32 bits. -/
def ShortText : Value → Prop
  | text value => (Utf8.encode value).length ≤ 0xffffffff
  | _ => True

/-- The lengths that the writer looks at fit: those of names 16 bits, those of arrays 32 bits. -/
def HasRoom : Value → Prop
  | object properties => ∀ entry ∈ properties, (Utf8.encode entry.1).length ≤ 65535
  | array values => values.length ≤ 0xffffffff
  | _ => True

/-- A part that the format can hold. -/
structure Holdable (part : Value) : Prop where
  ordered : part.Ordered
  named : part.Named
  shortText : part.ShortText
  hasRoom : part.HasRoom

/-! ## The parts of a compound -/

variable {p : Value → Prop} {properties : Properties} {values : List Value}

theorem Throughout.self {value : Value} (h : value.Throughout p) : p value := h value (.self value)

theorem Throughout.mono {q : Value → Prop} {value : Value} (h : value.Throughout p)
    (imp : ∀ part, p part → q part) : value.Throughout q :=
  fun part inside => imp part (h part inside)

theorem throughout_object : (object properties).Throughout p ↔
    p (object properties) ∧ ∀ entry ∈ properties, entry.2.Throughout p := by
  constructor
  · intro h
    exact ⟨h.self, fun entry member part inside => h part (.property member inside)⟩
  · rintro ⟨hself, hinside⟩ part h
    cases h with
    | self => exact hself
    | property member inside => exact hinside _ member part inside

theorem throughout_array : (array values).Throughout p ↔
    p (array values) ∧ ∀ value ∈ values, value.Throughout p := by
  constructor
  · intro h
    exact ⟨h.self, fun value member part inside => h part (.element member inside)⟩
  · rintro ⟨hself, hinside⟩ part h
    cases h with
    | self => exact hself
    | element member inside => exact hinside _ member part inside

/-- Nothing stands inside a value that is neither an object nor an array. -/
theorem throughout_leaf {value : Value} (hobject : ∀ properties, value ≠ object properties)
    (harray : ∀ values, value ≠ array values) : value.Throughout p ↔ p value := by
  constructor
  · exact Throughout.self
  · intro h part inside
    cases inside with
    | self => exact h
    | property => exact absurd rfl (hobject _)
    | element => exact absurd rfl (harray _)

/-! ## How deep the parts are nested -/

mutual

/-- How many objects and arrays stand around the innermost value. -/
def depth : Value → Nat
  | object properties => depthOfProperties properties
  | array values => depthOfAll values
  | number _ | boolean _ | text _ | null | undefined => 0
termination_by structural value => value

/-- One more than the deepest value, and nothing when there is none. -/
def depthOfProperties : List (String × Value) → Nat
  | [] => 0
  | (_, value) :: rest => max (depth value + 1) (depthOfProperties rest)
termination_by structural properties => properties

def depthOfAll : List Value → Nat
  | [] => 0
  | value :: rest => max (depth value + 1) (depthOfAll rest)
termination_by structural values => values

end

theorem depth_object_le_iff {n : Nat} :
    (object properties).depth ≤ n ↔ ∀ entry ∈ properties, entry.2.depth < n := by
  rw [depth]
  induction properties with
  | nil => simp [depthOfProperties]
  | cons entry rest ih =>
    rw [depthOfProperties, Nat.max_le, ih, List.forall_mem_cons, Nat.succ_le_iff]

theorem depth_array_le_iff {n : Nat} :
    (array values).depth ≤ n ↔ ∀ value ∈ values, value.depth < n := by
  rw [depth]
  induction values with
  | nil => simp [depthOfAll]
  | cons value rest ih => rw [depthOfAll, Nat.max_le, ih, List.forall_mem_cons, Nat.succ_le_iff]

/-! ## What the writer refuses -/

mutual

/-- The writer finds no fault where all the lengths it looks at fit. -/
theorem fault?_eq_none_iff : ∀ value : Value, fault? value = none ↔ value.Throughout HasRoom
  | object properties => by
    rw [fault?, faultOfProperties?_eq_none_iff, throughout_object]
    simp only [HasRoom, imp_and, forall_and]
  | array values => by
    rw [throughout_array, ← faultOfAll?_eq_none_iff values, fault?, HasRoom]
    split
    · next h => simp [Nat.not_le.mpr h]
    · next h => simp [Nat.not_lt.mp h]
  | number _ | boolean _ | text _ | null | undefined => by
    rw [throughout_leaf (by simp) (by simp)]
    simp [fault?, HasRoom]

theorem faultOfProperties?_eq_none_iff : ∀ properties : List (String × Value),
    faultOfProperties? properties = none ↔ ∀ entry ∈ properties,
      (Utf8.encode entry.1).length ≤ 65535 ∧ entry.2.Throughout HasRoom
  | [] => by simp [faultOfProperties?]
  | (name, value) :: rest => by
    rw [List.forall_mem_cons, ← faultOfProperties?_eq_none_iff rest, ← fault?_eq_none_iff value,
      faultOfProperties?, and_assoc]
    split
    · next h => simp [Nat.not_le.mpr h]
    · next h => simp [Nat.not_lt.mp h]

theorem faultOfAll?_eq_none_iff : ∀ values : List Value,
    faultOfAll? values = none ↔ ∀ value ∈ values, value.Throughout HasRoom
  | [] => by simp [faultOfAll?]
  | value :: rest => by
    rw [List.forall_mem_cons, ← faultOfAll?_eq_none_iff rest, ← fault?_eq_none_iff value,
      faultOfAll?, Option.or_eq_none_iff]

end

end RtmpEndpoint.Amf0.Value
