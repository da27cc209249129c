import RtmpEndpoint.Binary64

/-!
# AMF0 values

The value model of command and data messages. The properties of an object are listed in increasing
order of their names, one entry per name, which is also the order they are written in.
-/

namespace RtmpEndpoint.Amf0

inductive Value where
  | number (value : Binary64)
  | boolean (value : Bool)
  | text (value : String)
  | object (properties : List (String × Value))
  | array (values : List Value)
  | null
  | undefined
  deriving Inhabited, Repr

/-- Property lists of objects. -/
abbrev Properties := List (String × Value)

namespace Properties

/-- Gives `name` a value, in place of the one it had. -/
def insert (name : String) (value : Value) : Properties → Properties
  | [] => [(name, value)]
  | (n, v) :: rest =>
    if name < n then (name, value) :: (n, v) :: rest
    else if name = n then (name, value) :: rest
    else (n, v) :: insert name value rest

/-- Of two pairs with one name the later one counts. -/
def ofList (pairs : List (String × Value)) : Properties :=
  pairs.foldl (fun properties (name, value) => insert name value properties) []

def get? (name : String) : Properties → Option Value
  | [] => none
  | (n, v) :: rest => if n = name then some v else get? name rest

/-- Names strictly increase. -/
def Sorted (properties : Properties) : Prop := properties.Pairwise (fun a b => a.1 < b.1)

theorem get?_insert (name : String) (value : Value) (properties : Properties) (other : String) :
    get? other (insert name value properties)
      = if name = other then some value else get? other properties := by
  induction properties with
  | nil => simp [insert, get?]
  | cons e rest ih =>
    obtain ⟨n, v⟩ := e
    rw [insert]
    split
    · simp [get?]
    · split
      · next h => subst h; simp only [get?]; split <;> simp_all
      · next h => simp only [get?, ih]; split <;> simp_all

theorem mem_insert {name : String} {value : Value} {properties : Properties} {a : String × Value}
    (h : a ∈ insert name value properties) : a = (name, value) ∨ a ∈ properties := by
  induction properties with
  | nil => exact .inl (by simpa [insert] using h)
  | cons e rest ih =>
    obtain ⟨n, v⟩ := e
    rw [insert] at h
    split at h
    · simpa using h
    · split at h
      · exact (List.mem_cons.1 h).imp_right (List.mem_cons_of_mem _)
      · rcases List.mem_cons.1 h with h | h
        · exact .inr (by simp [h])
        · exact (ih h).imp_right (List.mem_cons_of_mem _)

theorem sorted_insert (name : String) (value : Value) {properties : Properties}
    (h : Sorted properties) : Sorted (insert name value properties) := by
  induction properties with
  | nil => simp [insert, Sorted]
  | cons e rest ih =>
    obtain ⟨n, v⟩ := e
    obtain ⟨hn, hrest⟩ := List.pairwise_cons.1 h
    rw [insert]
    split
    · next hlt =>
      refine List.pairwise_cons.2 ⟨fun a ha => ?_, h⟩
      rcases List.mem_cons.1 ha with rfl | ha
      · exact hlt
      · exact String.lt_trans hlt (hn a ha)
    · split
      · next heq => subst heq; exact List.pairwise_cons.2 ⟨hn, hrest⟩
      · next hlt hne =>
        refine List.pairwise_cons.2 ⟨fun a ha => ?_, ih hrest⟩
        rcases mem_insert ha with rfl | ha
        · exact Std.lt_of_le_of_ne (String.not_lt.1 hlt) (Ne.symm hne)
        · exact hn a ha

end Properties

namespace Value

def asNumber? : Value → Option Binary64
  | number value => some value
  | _ => none

def asBoolean? : Value → Option Bool
  | boolean value => some value
  | _ => none

def asText? : Value → Option String
  | text value => some value
  | _ => none

def asObject? : Value → Option Properties
  | object properties => some properties
  | _ => none

/-- The property `name`, when the value is an object that has it. -/
def property? (value : Value) (name : String) : Option Value :=
  value.asObject?.bind (Properties.get? name)

def isNullOrUndefined : Value → Bool
  | null | undefined => true
  | _ => false

mutual

/-- Equality with numbers compared as IEEE numbers. -/
def eq : Value → Value → Bool
  | number x, number y => x.eq y
  | boolean x, boolean y => x == y
  | text x, text y => x == y
  | object x, object y => eqProperties x y
  | array x, array y => eqAll x y
  | null, null => true
  | undefined, undefined => true
  | _, _ => false
termination_by structural value => value

def eqProperties : List (String × Value) → List (String × Value) → Bool
  | [], [] => true
  | (n, x) :: xs, (m, y) :: ys => n == m && eq x y && eqProperties xs ys
  | _, _ => false
termination_by structural properties => properties

def eqAll : List Value → List Value → Bool
  | [], [] => true
  | x :: xs, y :: ys => eq x y && eqAll xs ys
  | _, _ => false
termination_by structural values => values

end

/-- The `level`, `code` and `description` object of a status reply. -/
def status (level code description : String) : Value :=
  object (Properties.ofList
    [("level", text level), ("code", text code), ("description", text description)])

end Value

end RtmpEndpoint.Amf0
