import Mathlib
import RtmpEndpoint.Message.Body
import RtmpEndpoint.Proofs.Amf0.Reencoding

/-!
# Messages there and back

A message that the wire has room for is written, and its body is read as that message. The reader
takes more bodies than the writer makes: bytes after the last field, a chunk size with 32 bits, a
transaction id that is null or missing, AMF3 without its selector. Whatever it takes, it reads as a
message that the wire has room for.
-/

namespace RtmpEndpoint.Message

open Amf0 (maxNesting)
open Amf0.Value (Readable)

/-- The types whose bodies are looked into or have a meaning as they are. -/
def interpreted : List Tag :=
  [.setChunkSize, .abort, .acknowledgement, .userControl, .windowAcknowledgementSize,
    .setPeerBandwidth, .audio, .video, .amf3Data, .amf3Command, .amf0Data, .amf0Command]

/-- A message that the wire has room for: a chunk size has 31 bits, values can be held and are not
too deep, and what counts as unknown has no type with a meaning. -/
def Representable : Message → Prop
  | .setChunkSize size => size.toNat ≤ 0x7fffffff
  | .command call => (Utf8.encode call.name).length ≤ 0xffffffff ∧
      Readable (maxNesting + 1) call.object ∧
      ∀ argument ∈ call.arguments, Readable (maxNesting + 1) argument
  | .data message => ∀ value ∈ message.values, Readable (maxNesting + 1) value
  | .unknown tag _ => tag ∉ interpreted
  | .abort _ | .acknowledgement _ | .userControl _ | .windowAcknowledgementSize _
  | .setPeerBandwidth _ _ | .audio _ | .video _ => True

variable {data : Bytes}

/-! ## Control bodies -/

theorem limitOfCode?_limitCode (limit : BandwidthLimit) :
    limitOfCode? (limitCode limit) = some limit := by
  cases limit <;> rfl

theorem number?_encodeEvent (code : Nat) (value : UInt32) (rest : Bytes) (h : code < 65536) :
    (encodeEvent code value ++ rest).number? 2 = some (code, Bytes.ofUInt32 value ++ rest) := by
  rw [encodeEvent, List.append_assoc]
  exact Bytes.number?_ofNat h _

theorem decode_encodeUserControl (event : UserControl) :
    decodeUserControl (encodeUserControl event) = .ok event := by
  have hread (code : Nat) (value : UInt32) (h : code < 65536) :
      (encodeEvent code value).number? 2 = some (code, Bytes.ofUInt32 value ++ []) := by
    simpa using number?_encodeEvent code value [] h
  cases event with
  | setBufferLength streamId bufferLength =>
    have hlength : readUInt32 (Bytes.ofUInt32 bufferLength) = .ok (bufferLength, []) := by
      simpa using readUInt32_ofUInt32 bufferLength []
    simp only [encodeUserControl, decodeUserControl, number?_encodeEvent, Nat.reduceLT,
      readUInt32_ofUInt32]
    simp only [bind, Except.bind, hlength]
    rfl
  | streamBegin | streamEof | streamDry | streamIsRecorded | pingRequest | pingResponse =>
    simp only [encodeUserControl, decodeUserControl, hread, Nat.reduceLT, readUInt32_ofUInt32]
    rfl

/-! ## Bodies of values -/

theorem amf0Part_formatSelector (encoding : ObjectEncoding) (body : Bytes) :
    amf0Part encoding (formatSelector encoding ++ body) = body := by
  cases encoding <;> rfl

theorem decodeValues_encodeValues {values : List Amf0.Value}
    (h : ∀ value ∈ values, Readable (maxNesting + 1) value) (encoding : ObjectEncoding) :
    ∃ body, encodeValues encoding values = .ok body ∧ decodeValues encoding body = .ok values := by
  obtain ⟨written, hwrite, hread⟩ := Amf0.Value.decodeAll_of_readable h
  refine ⟨formatSelector encoding ++ written, ?_, ?_⟩
  · rw [encodeValues, hwrite]
  · rw [decodeValues, amf0Part_formatSelector, hread]

theorem readable_of_decodeValues {encoding : ObjectEncoding} {values : List Amf0.Value}
    (h : decodeValues encoding data = .ok values) :
    ∀ value ∈ values, Readable (maxNesting + 1) value := by
  unfold decodeValues at h
  split at h
  · next hread =>
    cases h
    exact Amf0.Value.readable_of_decodeAll hread
  · cases h

theorem commandOfValues_commandValues (call : Command) :
    commandOfValues call.encoding (commandValues call) = .ok call := rfl

theorem readable_commandValues {call : Command} (h : Representable (.command call)) :
    ∀ value ∈ commandValues call, Readable (maxNesting + 1) value := by
  obtain ⟨hname, hobject, harguments⟩ := h
  have htext : Readable (maxNesting + 1) (.text call.name) :=
    Amf0.Value.readable_leaf (by simp) (by simp) hname
  have hnumber : Readable (maxNesting + 1) (.number call.transactionId) :=
    Amf0.Value.readable_leaf (by simp) (by simp) trivial
  simpa [commandValues] using ⟨htext, hnumber, hobject, harguments⟩

/-- However much of a command is there, it is made of the values that were read and of null. -/
theorem representable_commandOfValues {encoding : ObjectEncoding} {values : List Amf0.Value}
    {call : Command} (hvalues : ∀ value ∈ values, Readable (maxNesting + 1) value)
    (h : commandOfValues encoding values = .ok call) :
    call.encoding = encoding ∧ Representable (.command call) := by
  have hshort {name : String} (htext : Readable (maxNesting + 1) (.text name)) :
      (Utf8.encode name).length ≤ 0xffffffff := htext.holdable.self.shortText
  have hnull : Readable (maxNesting + 1) .null :=
    Amf0.Value.readable_leaf (by simp) (by simp) trivial
  unfold commandOfValues at h
  split at h
  case h_4 | h_5 =>
    cases h
    simp only [List.forall_mem_cons] at hvalues
    obtain ⟨hname, -, hobject, harguments⟩ := hvalues
    exact ⟨rfl, hshort hname, hobject, harguments⟩
  case h_1 | h_2 | h_3 =>
    -- The object was missing.
    cases h
    obtain ⟨hname, -⟩ := List.forall_mem_cons.mp hvalues
    exact ⟨rfl, hshort hname, hnull, by simp⟩
  case h_6 => cases h

/-! ## Whole messages -/

theorem encode_of_encodeBody {message : Message} {body : Bytes}
    (h : encodeBody message = .ok body) : encode message = .ok (message.tag, body) := by
  rw [encode, h]

/-- What no type gives a meaning to is carried as it is. -/
theorem decode_of_not_interpreted {tag : Tag} (h : tag ∉ interpreted) (body : Bytes) :
    decode tag body = .ok (.unknown tag body) := by
  unfold decode
  split
  -- The last case is that of all other types.
  case h_13 => rfl
  all_goals exact absurd (by decide) h

theorem decode_encodeBody {message : Message} (h : message.Representable) :
    ∃ body, encodeBody message = .ok body ∧ decode message.tag body = .ok message := by
  have hread (n : UInt32) : readUInt32 (Bytes.ofUInt32 n) = .ok (n, []) := by
    simpa using readUInt32_ofUInt32 n []
  cases message with
  | setChunkSize size =>
    refine ⟨Bytes.ofUInt32 size, ?_, ?_⟩
    · rw [encodeBody, and_chunkSizeMask h]
    · simp only [decode, tag, hread, bind, Except.bind, and_chunkSizeMask h]
      rfl
  | abort | acknowledgement | windowAcknowledgementSize =>
    refine ⟨_, rfl, ?_⟩
    simp only [decode, tag, hread]
    rfl
  | userControl event =>
    refine ⟨_, rfl, ?_⟩
    simp only [decode, tag, decode_encodeUserControl]
    rfl
  | setPeerBandwidth size limit =>
    refine ⟨_, rfl, ?_⟩
    simp only [decode, tag, readUInt32_ofUInt32, bind, Except.bind, limitOfCode?_limitCode]
    rfl
  | audio body | video body => exact ⟨body, rfl, rfl⟩
  | command call =>
    obtain ⟨body, hwrite, hvalues⟩ :=
      decodeValues_encodeValues (readable_commandValues h) call.encoding
    have hcall := commandOfValues_commandValues call
    refine ⟨body, hwrite, ?_⟩
    obtain ⟨encoding, name, transactionId, object, arguments⟩ := call
    cases encoding with
    | amf0 | amf3 =>
      simp only [decode, tag, hvalues, bind, Except.bind, hcall]
      rfl
  | data message =>
    obtain ⟨body, hwrite, hvalues⟩ := decodeValues_encodeValues h message.encoding
    refine ⟨body, hwrite, ?_⟩
    obtain ⟨encoding, values⟩ := message
    cases encoding with
    | amf0 | amf3 =>
      simp only [decode, tag, hvalues]
      rfl
  | unknown tag body => exact ⟨body, rfl, decode_of_not_interpreted h body⟩

/-- Whatever body was read, the wire has room for what it was read as. -/
theorem representable_of_decode {tag : Tag} {message : Message}
    (h : decode tag data = .ok message) : message.tag = tag ∧ message.Representable := by
  unfold decode at h
  split at h
  case h_1 =>
    -- The high bit of a chunk size is dropped.
    obtain ⟨⟨size, rest⟩, -, h⟩ := Amf0.bind_eq_ok.mp h
    cases h
    refine ⟨rfl, ?_⟩
    have hlt : size.toNat % 0x80000000 < 0x80000000 := Nat.mod_lt _ (by decide)
    rw [Representable, toNat_and_chunkSizeMask]
    omega
  case h_2 | h_3 | h_4 | h_5 =>
    obtain ⟨value, -, h⟩ := Amf0.bind_eq_ok.mp h
    cases h
    exact ⟨rfl, trivial⟩
  case h_6 =>
    obtain ⟨⟨size, rest⟩, -, h⟩ := Amf0.bind_eq_ok.mp h
    dsimp only at h
    split at h
    · cases h
    · split at h
      · cases h
        exact ⟨rfl, trivial⟩
      · cases h
  case h_7 | h_8 =>
    cases h
    exact ⟨rfl, trivial⟩
  case h_9 | h_10 =>
    obtain ⟨values, hvalues, h⟩ := Amf0.bind_eq_ok.mp h
    obtain ⟨call, hcall, h⟩ := Amf0.bind_eq_ok.mp h
    obtain ⟨hencoding, hroom⟩ :=
      representable_commandOfValues (readable_of_decodeValues hvalues) hcall
    cases h
    refine ⟨?_, hroom⟩
    obtain ⟨encoding, name, transactionId, object, arguments⟩ := call
    cases hencoding
    rfl
  case h_11 | h_12 =>
    obtain ⟨values, hvalues, h⟩ := Amf0.bind_eq_ok.mp h
    cases h
    exact ⟨rfl, readable_of_decodeValues hvalues⟩
  case h_13 =>
    cases h
    refine ⟨rfl, ?_⟩
    simp_all [Representable, interpreted]

/-- A message that the wire has room for is written with its own type, and read back bit for bit. -/
theorem representable_read_back {message : Message} (h : message.Representable) :
    ∃ body, encode message = .ok (message.tag, body) ∧
      decode message.tag body = .ok message := by
  obtain ⟨body, hwrite, hread⟩ := decode_encodeBody h
  exact ⟨body, encode_of_encodeBody hwrite, hread⟩

/-- A call with an id that is not a number, an object with an array in it and an argument. -/
def oddCall : Command where
  encoding := .amf3
  name := "play"
  transactionId := ⟨0x7ff8000000000001⟩
  object := .object [("a", .array [.null])]
  arguments := [.number ⟨0x8000000000000000⟩]

theorem representable_read_back_oddCall :
    (Message.command oddCall).Representable ∧
      ∃ body, encode (.command oddCall) = .ok (.amf3Command, body) ∧
        decode .amf3Command body = .ok (.command oddCall) := by
  have hroom : (Message.command oddCall).Representable := by
    refine ⟨by decide, ⟨by decide, ?_⟩, ?_⟩
    · simp only [oddCall, Amf0.Value.throughout_object, Amf0.Value.throughout_array,
        List.forall_mem_singleton]
      refine ⟨⟨?_, ?_, trivial, ?_⟩, ⟨trivial, trivial, trivial, ?_⟩, ?_⟩
      · simp [Amf0.Value.Ordered, Amf0.Properties.Sorted]
      · simp [Amf0.Value.Named]
      · simp only [Amf0.Value.HasRoom, List.forall_mem_singleton]
        decide
      · simp [Amf0.Value.HasRoom]
      · rw [Amf0.Value.throughout_leaf (by simp) (by simp)]
        exact ⟨trivial, trivial, trivial, trivial⟩
    · intro argument member
      rw [List.mem_singleton.mp member]
      exact Amf0.Value.readable_leaf (by simp) (by simp) trivial
  exact ⟨hroom, representable_read_back hroom⟩

/-- However loosely a body was written, the message that it is read as keeps the type, can be
written with it and is read back bit for bit. -/
theorem decoded_read_back {tag : Tag} {message : Message} (h : decode tag data = .ok message) :
    message.tag = tag ∧
      ∃ body, encode message = .ok (tag, body) ∧ decode tag body = .ok message := by
  obtain ⟨rfl, hroom⟩ := representable_of_decode h
  obtain ⟨body, hwrite, hread⟩ := decode_encodeBody hroom
  exact ⟨rfl, body, encode_of_encodeBody hwrite, hread⟩

/-- A chunk size of 32 bits with a byte behind it, and a call without a selector, an id and an
object. -/
theorem decoded_read_back_looseBodies :
    decode .setChunkSize [0x80, 0, 0x10, 0, 9] = .ok (.setChunkSize 4096) ∧
      (∃ body, encode (.setChunkSize 4096) = .ok (.setChunkSize, body) ∧
        decode .setChunkSize body = .ok (.setChunkSize 4096)) ∧
      decode .amf3Command [2, 0, 1, 97, 5] = .ok (.command ⟨.amf3, "a", .zero, .null, []⟩) ∧
      ∃ body, encode (.command ⟨.amf3, "a", .zero, .null, []⟩) = .ok (.amf3Command, body) ∧
        decode .amf3Command body = .ok (.command ⟨.amf3, "a", .zero, .null, []⟩) := by
  have hsize : decode .setChunkSize [0x80, 0, 0x10, 0, 9] = .ok (.setChunkSize 4096) := rfl
  have hcall : decode .amf3Command [2, 0, 1, 97, 5]
      = .ok (.command ⟨.amf3, "a", .zero, .null, []⟩) := by cbv
  exact ⟨hsize, (decoded_read_back hsize).2, hcall, (decoded_read_back hcall).2⟩

end RtmpEndpoint.Message
