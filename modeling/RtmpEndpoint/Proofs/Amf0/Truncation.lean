import Mathlib
import RtmpEndpoint.Amf0.Decode

/-!
# Reading when more bytes follow

Reading goes through the bytes from the front and never looks at what comes after the value. So once
it has an answer, or has found a fault other than that bytes are missing, bytes that follow do not
change that. When a value is cut off, what is left of it is no other value: bytes are missing.

The loop over properties takes a bound, and the bound is longer when more bytes follow. So what is
said here about one reader is said about two, the second of which is given more bytes.
-/

namespace RtmpEndpoint.Amf0

abbrev Reader (α : Type) := Bytes → Except DecodeError (α × Bytes)

/-- What was read, when more bytes follow. -/
def followedBy {α : Type} (more : Bytes) (answer : Except DecodeError (α × Bytes)) :
    Except DecodeError (α × Bytes) :=
  answer.map fun (value, rest) => (value, rest ++ more)

/-- Unless it misses bytes, the first reader takes some of the bytes at the front, and the second
one does the same when more bytes follow. -/
structure Settles {α : Type} (read again : Reader α) : Prop where
  rest : ∀ {bytes value rest}, read bytes = .ok (value, rest) → rest <:+ bytes
  append : ∀ {bytes} more, read bytes ≠ .error .unexpectedEof →
    again (bytes ++ more) = followedBy more (read bytes)

namespace Settles

variable {α β : Type}

theorem pure (value : α) :
    Settles (fun bytes => .ok (value, bytes)) fun bytes => .ok (value, bytes) where
  rest h := by
    cases h
    exact List.suffix_refl _
  append more _ := rfl

theorem error (e : DecodeError) : Settles (α := α) (fun _ => .error e) fun _ => .error e where
  rest h := by cases h
  append more _ := rfl

/-- A reader that misses bytes has settled nothing. -/
theorem missing (again : Reader α) : Settles (fun _ => .error .unexpectedEof) again where
  rest h := by cases h
  append more h := absurd rfl h

theorem bind {read again : Reader α} {f g : α × Bytes → Except DecodeError (β × Bytes)}
    (first : Settles read again)
    (andThen : ∀ value, Settles (fun bytes => f (value, bytes)) fun bytes => g (value, bytes)) :
    Settles (fun bytes => read bytes >>= f) fun bytes => again bytes >>= g where
  rest {bytes _ _} h := by
    cases hread : read bytes with
    | error e => rw [hread] at h; cases h
    | ok answer =>
      rw [hread] at h
      exact ((andThen answer.1).rest h).trans (first.rest hread)
  append {bytes} more h := by
    cases hread : read bytes with
    | error e =>
      have hsettled : read bytes ≠ .error .unexpectedEof := by
        rw [hread] at h ⊢
        rintro ⟨⟩
        exact h rfl
      rw [first.append more hsettled, hread]
      rfl
    | ok answer =>
      rw [hread] at h
      rw [first.append more (by rw [hread]; simp), hread]
      exact (andThen answer.1).append more h

theorem ite {read again read' again' : Reader α} (c : Prop) [Decidable c]
    (yes : Settles read again) (no : Settles read' again') :
    Settles (fun bytes => if c then read bytes else read' bytes)
      fun bytes => if c then again bytes else again' bytes := by
  by_cases hc : c
  · simpa only [if_pos hc] using yes
  · simpa only [if_neg hc] using no

end Settles

/-! ## Parts of a value -/

theorem settles_readNat (width : Nat) : Settles (readNat width) (readNat width) where
  rest {bytes _ _} h := by
    unfold readNat Bytes.number? at h
    cases hsplit : bytes.split? width with
    | none => rw [hsplit] at h; cases h
    | some parts =>
      rw [hsplit] at h
      cases h
      exact ⟨parts.1, (Bytes.split?_eq_some_iff.mp hsplit).1.symm⟩
  append {bytes} more h := by
    unfold readNat Bytes.number? at h ⊢
    cases hsplit : bytes.split? width with
    | none => rw [hsplit] at h; exact absurd rfl h
    | some parts => rw [Bytes.split?_append hsplit]; rfl

theorem settles_readByte : Settles readByte readByte where
  rest {bytes _ _} h := by
    cases bytes with
    | nil => cases h
    | cons b bytes =>
      cases h
      exact List.suffix_cons _ _
  append {bytes} more h := by
    cases bytes with
    | nil => exact absurd rfl h
    | cons b rest => rfl

theorem settles_readText (length : Nat) : Settles (readText length) (readText length) where
  rest {bytes _ _} h := by
    unfold readText at h
    split at h
    · cases h
    · next front tail hsplit =>
      split at h
      · cases h
        exact ⟨front, (Bytes.split?_eq_some_iff.mp hsplit).1.symm⟩
      · cases h
  append {bytes} more h := by
    unfold readText at h ⊢
    cases hsplit : bytes.split? length with
    | none => rw [hsplit] at h; exact absurd rfl h
    | some parts =>
      -- Whether the text is well-formed is asked only once all of its bytes are there.
      obtain ⟨front, rest⟩ := parts
      simp only [Bytes.split?_append hsplit]
      cases Utf8.decode front <;> rfl

/-! ## Loops and levels -/

variable {nested : UInt8 → Reader Value}

theorem settles_readElements (h : ∀ marker, Settles (nested marker) (nested marker)) (count : Nat)
    (read : List Value) :
    Settles (readElements nested count read) (readElements nested count read) := by
  induction count generalizing read with
  | zero => exact .pure read.reverse
  | succ count ih =>
    exact settles_readByte.bind fun marker => (h marker).bind fun value => ih (value :: read)

/-- One round of the loop over properties, when what comes after it settles. -/
theorem settles_property (h : ∀ marker, Settles (nested marker) (nested marker))
    {bound again : Bytes} (read : Properties)
    (hmore : ∀ read : Properties,
      Settles
        (fun bytes => match bound with
          | [] => .error .unexpectedEof
          | _ :: bound => readProperties nested bound read bytes)
        fun bytes => match again with
          | [] => .error .unexpectedEof
          | _ :: again => readProperties nested again read bytes) :
    Settles (readProperties nested bound read) (readProperties nested again read) := by
  rw [funext (readProperties.eq_def nested bound read),
    funext (readProperties.eq_def nested again read)]
  refine (settles_readNat 2).bind fun length => .ite _ ?_ ?_
  · exact settles_readByte.bind fun marker => .ite _ (.pure read) (.error _)
  · exact (settles_readText length).bind fun name => settles_readByte.bind fun marker =>
      (h marker).bind fun value => hmore (read.insert name value)

/-- The bound of the second loop is only longer. -/
theorem settles_readProperties (h : ∀ marker, Settles (nested marker) (nested marker))
    {bound again : Bytes} (hle : bound.length ≤ again.length) (read : Properties) :
    Settles (readProperties nested bound read) (readProperties nested again read) := by
  induction bound generalizing again read with
  | nil => exact settles_property h read fun read => .missing _
  | cons b bound ih =>
    cases again with
    | nil => cases hle
    | cons b' again =>
      exact settles_property h read fun read => ih (Nat.le_of_succ_le_succ hle) read

theorem settles_readMarked (levels : Nat) (marker : UInt8) :
    Settles (readMarked levels marker) (readMarked levels marker) := by
  induction levels generalizing marker with
  | zero => exact .error _
  | succ levels ih =>
    -- The bound of the properties is the bytes themselves.
    have hproperties : Settles
        (fun bytes => readProperties (readMarked levels) bytes [] bytes)
        (fun bytes => readProperties (readMarked levels) bytes [] bytes) := by
      constructor
      · exact fun {bytes _ _} h => (settles_readProperties ih (Nat.le_refl _) []).rest h
      · intro bytes more h
        refine (settles_readProperties ih ?_ []).append more h
        rw [List.length_append]
        exact Nat.le_add_right _ _
    rw [funext (readMarked.eq_def (levels + 1) marker)]
    refine .ite _ ?number <| .ite _ ?boolean <| .ite _ ?text <| .ite _ ?longText <|
      .ite _ ?object <| .ite _ ?ecmaArray <| .ite _ ?strictArray <| .ite _ ?date <|
      .ite _ (.pure Value.null) <| .ite _ (.pure Value.undefined) (.error _)
    case number => exact (settles_readNat 8).bind fun bits => .pure _
    case boolean => exact settles_readByte.bind fun flag => .pure _
    case text =>
      exact (settles_readNat 2).bind fun length =>
        (settles_readText length).bind fun text => .pure _
    case longText =>
      exact (settles_readNat 4).bind fun length =>
        (settles_readText length).bind fun text => .pure _
    case object => exact hproperties.bind fun properties => .pure _
    case ecmaArray =>
      exact (settles_readNat 4).bind fun _ => hproperties.bind fun properties => .pure _
    case strictArray =>
      exact (settles_readNat 4).bind fun count =>
        (settles_readElements ih count []).bind fun values => .pure _
    case date =>
      exact (settles_readNat 8).bind fun bits => (settles_readNat 2).bind fun _ => .pure _

/-! ## Values -/

namespace Value

/-- Reads the value at a position, and answers the position after it; nothing when no byte is left
there. -/
def readAt (bytes : Bytes) (position : Nat) : Except DecodeError (Option (Value × Nat)) :=
  (decode (bytes.drop position)).map
    (Option.map fun (value, rest) => (value, bytes.length - rest.length))

theorem decode_append {bytes : Bytes} (nonempty : bytes ≠ []) (more : Bytes)
    (h : decode bytes ≠ .error .unexpectedEof) :
    decode (bytes ++ more)
      = (decode bytes).map (Option.map fun (value, rest) => (value, rest ++ more)) := by
  cases bytes with
  | nil => exact absurd rfl nonempty
  | cons marker body =>
    have hbody : readMarked (maxNesting + 1) marker body ≠ .error .unexpectedEof := by
      intro hread
      exact h (by rw [decode, hread]; rfl)
    have happend := (settles_readMarked (maxNesting + 1) marker).append more hbody
    rw [List.cons_append, decode, decode, happend]
    cases readMarked (maxNesting + 1) marker body <;> rfl

/-- A value takes at least its marker. -/
theorem decode_rest {bytes rest : Bytes} {value : Value}
    (h : decode bytes = .ok (some (value, rest))) :
    rest <:+ bytes ∧ rest.length < bytes.length := by
  cases bytes with
  | nil => cases h
  | cons marker body =>
    rw [decode] at h
    cases hread : readMarked (maxNesting + 1) marker body with
    | error e => rw [hread] at h; cases h
    | ok answer =>
      rw [hread] at h
      cases h
      have hsuffix := (settles_readMarked (maxNesting + 1) marker).rest hread
      exact ⟨hsuffix.trans (List.suffix_cons marker body), Nat.lt_succ_of_le hsuffix.length_le⟩

theorem readAt_eq_error_iff {bytes : Bytes} {position : Nat} {e : DecodeError} :
    readAt bytes position = .error e ↔ decode (bytes.drop position) = .error e := by
  rw [readAt]
  cases decode (bytes.drop position) <;> simp [Except.map]

/-- What comes after a value that was read begins at the position that was answered. -/
theorem readAt_eq_ok_iff {bytes : Bytes} {position next : Nat} {value : Value} :
    readAt bytes position = .ok (some (value, next)) ↔
      position < next ∧ next ≤ bytes.length ∧
        decode (bytes.drop position) = .ok (some (value, bytes.drop next)) := by
  constructor
  · intro h
    rw [readAt] at h
    cases hread : decode (bytes.drop position) with
    | error e => rw [hread] at h; cases h
    | ok answer =>
      cases answer with
      | none => rw [hread] at h; cases h
      | some answer =>
        obtain ⟨value, rest⟩ := answer
        rw [hread] at h
        cases h
        obtain ⟨hsuffix, hshorter⟩ := decode_rest hread
        rw [List.length_drop] at hshorter
        have hrest := List.suffix_iff_eq_drop.mp (hsuffix.trans (List.drop_suffix position bytes))
        exact ⟨by omega, Nat.sub_le .., by rw [← hrest]⟩
  · rintro ⟨-, hle, hread⟩
    rw [readAt, hread]
    simp only [Except.map, Option.map_some, List.length_drop, Nat.sub_sub_self hle]

theorem decodeAll_of_decode {bytes : Bytes} {e : DecodeError} (h : decode bytes = .error e) :
    decodeAll bytes = .error e := by
  rw [decodeAll, decodeOnto, h]
  rfl

/-- A value that is cut off anywhere misses bytes. -/
theorem decode_cut {bytes : Bytes} {position next cut : Nat} {value : Value}
    (h : readAt bytes position = .ok (some (value, next))) (hposition : position < cut)
    (hcut : cut < next) :
    decode ((bytes.take cut).drop position) = .error .unexpectedEof := by
  obtain ⟨-, hnext, hread⟩ := readAt_eq_ok_iff.mp h
  have hlength : ((bytes.take cut).drop position).length = cut - position := by
    rw [List.length_drop, List.length_take, Nat.min_eq_left (by omega)]
  have hnonempty : (bytes.take cut).drop position ≠ [] := by
    rw [← List.length_pos_iff, hlength]
    exact Nat.sub_pos_of_lt hposition
  have hwhole : bytes.drop position = (bytes.take cut).drop position ++ bytes.drop cut := by
    rw [← List.drop_append_of_le_length (by rw [List.length_take]; omega), List.take_append_drop]
  refine Classical.byContradiction fun hsettled => ?_
  -- Otherwise the whole would be read the same way, and leave all that was cut off.
  have happend := decode_append hnonempty (bytes.drop cut) hsettled
  rw [← hwhole, hread] at happend
  cases hshort : decode ((bytes.take cut).drop position) with
  | error e => rw [hshort] at happend; cases happend
  | ok answer =>
    cases answer with
    | none => rw [hshort] at happend; cases happend
    | some answer =>
      rw [hshort] at happend
      have hrest := (Prod.mk.inj (Option.some.inj (Except.ok.inj happend))).2
      have hleft := congrArg List.length hrest
      rw [List.length_append, List.length_drop, List.length_drop] at hleft
      omega

/-- What has been read at a position, or the fault found there, stays when more bytes follow, unless
it is that bytes are missing. And bytes are missing from each part of a value. -/
theorem readAt_settled {bytes : Bytes} {position : Nat} (inside : position < bytes.length)
    (settled : readAt bytes position ≠ .error .unexpectedEof) :
    (∀ more, readAt (bytes ++ more) position = readAt bytes position) ∧
      ∀ value next, readAt bytes position = .ok (some (value, next)) →
        position < next ∧ next ≤ bytes.length ∧
          ∀ cut, position < cut → cut < next →
            readAt (bytes.take cut) position = .error .unexpectedEof ∧
              decodeAll ((bytes.take cut).drop position) = .error .unexpectedEof := by
  constructor
  · intro more
    have hnonempty : bytes.drop position ≠ [] := by
      rw [← List.length_pos_iff, List.length_drop]
      exact Nat.sub_pos_of_lt inside
    rw [Ne, readAt_eq_error_iff] at settled
    rw [readAt, readAt, List.drop_append_of_le_length (Nat.le_of_lt inside),
      decode_append hnonempty more settled]
    cases decode (bytes.drop position) with
    | error e => rfl
    | ok answer =>
      cases answer with
      | none => rfl
      | some answer =>
        simp only [Except.map, Option.map_some, List.length_append, Nat.add_sub_add_right]
  · intro value next hread
    obtain ⟨hposition, hnext, -⟩ := readAt_eq_ok_iff.mp hread
    refine ⟨hposition, hnext, fun cut hfrom hcut => ?_⟩
    have hmissing := decode_cut hread hfrom hcut
    exact ⟨readAt_eq_error_iff.mpr hmissing, decodeAll_of_decode hmissing⟩

/-- Nothing, and then an object with an array in it. -/
def nullAndObject : Bytes := [5, 3, 0, 1, 97, 10, 0, 0, 0, 2, 2, 0, 1, 120, 5, 0, 0, 9]

theorem readAt_settled_nullAndObject :
    readAt nullAndObject 1 = .ok (some (object [("a", array [text "x", null])], 18)) ∧
      (∀ more, readAt (nullAndObject ++ more) 1
        = .ok (some (object [("a", array [text "x", null])], 18))) ∧
      ∀ cut, 1 < cut → cut < 18 → readAt (nullAndObject.take cut) 1 = .error .unexpectedEof := by
  have hread : readAt nullAndObject 1
      = .ok (some (object [("a", array [text "x", null])], 18)) := by cbv
  have inside : 1 < nullAndObject.length := by decide
  obtain ⟨hmore, hcut⟩ := readAt_settled inside (by rw [hread]; simp)
  refine ⟨hread, fun more => (hmore more).trans hread, fun cut hfrom hto => ?_⟩
  exact ((hcut _ _ hread).2.2 cut hfrom hto).1

end Value

end RtmpEndpoint.Amf0
