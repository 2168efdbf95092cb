import PluginBridge.Bridge.Message
import PluginBridge.Proofs.Compact

/-! The bodies of calls and replies, read back. -/

namespace PluginBridge

open PluginBridge.Compact (Form)

theorem ErrorKind.mem_all (kind : ErrorKind) : kind ∈ ErrorKind.all := by
  cases kind <;> decide

theorem Envelope.roundTrips (envelope : Envelope) (fits : (form.write envelope).length < 2 ^ 64) :
    form.RoundTrips envelope := by
  obtain ⟨message, kind⟩ := envelope
  simp only [form, Form.as, Form.pair, Form.text, Form.bytes, List.length_append] at fits
  apply Form.roundTrips_as _ rfl
  apply Form.roundTrips_pair (Form.roundTrips_text message (by omega))
  apply Form.roundTrips_option
  intro kind _
  exact Form.roundTrips_choice (by decide) kind.mem_all

namespace Message

theorem roundTrips_acknowledgement (envelope : Option Envelope)
    (fits : (acknowledgement.write envelope).length < 2 ^ 64) :
    acknowledgement.RoundTrips envelope := by
  apply Form.roundTrips_option
  intro inside given
  obtain rfl : envelope = some inside := given
  simp only [acknowledgement, Form.option, List.length_cons] at fits
  exact inside.roundTrips (by omega)

theorem roundTrips_text (content : String) (fits : (text.write content).length < 2 ^ 64) :
    text.RoundTrips content := by
  simp only [text, Form.text, Form.bytes, List.length_append] at fits
  exact Form.roundTrips_text content (by omega)

theorem roundTrips_blob (content : Bytes) (fits : (blob.write content).length < 2 ^ 64) :
    blob.RoundTrips content := by
  simp only [blob, Form.bytes, List.length_append] at fits
  exact Form.roundTrips_bytes content (by omega)

theorem roundTrips_named (content : String × Option Envelope)
    (fits : (named.write content).length < 2 ^ 64) : named.RoundTrips content := by
  simp only [named, Form.pair, List.length_append] at fits
  exact Form.roundTrips_pair (roundTrips_text content.1 (by
    rw [text]
    omega)) (roundTrips_acknowledgement content.2 (by omega))

theorem roundTrips_outcome (content : Bytes × Option Envelope)
    (fits : (outcome.write content).length < 2 ^ 64) : outcome.RoundTrips content := by
  simp only [outcome, Form.pair, List.length_append] at fits
  exact Form.roundTrips_pair (roundTrips_blob content.1 (by
    rw [blob]
    omega)) (roundTrips_acknowledgement content.2 (by omega))

theorem length_blob_le {blobs : List Bytes} {content : Bytes} (member : content ∈ blobs) :
    (Form.bytes.write content).length ≤ (blobs.flatMap Form.bytes.write).length := by
  obtain ⟨before, after, rfl⟩ := List.append_of_mem member
  simp only [List.flatMap_append, List.flatMap_cons, List.length_append]
  omega

theorem length_le_blobs (blobs : List Bytes) :
    blobs.length ≤ (blobs.flatMap Form.bytes.write).length := by
  apply Reader.length_le_of_cons fun _ _ => List.flatMap_cons
  intro content
  have first := Compact.length_varint_pos content.length
  simp only [Form.bytes, Form.size, List.length_append]
  omega

theorem roundTrips_blobs (content : List Bytes) (fits : (blobs.write content).length < 2 ^ 64) :
    blobs.RoundTrips content := by
  have count := length_le_blobs content
  simp only [blobs, Form.list, List.length_append] at fits
  apply Form.roundTrips_list (by omega)
  intro item member
  have shorter := length_blob_le member
  exact roundTrips_blob item (by
    rw [blob]
    omega)

/-- A body that round-trips is read as what it was written for. -/
theorem read_write {α : Type} {form : Form α} {a : α} (trip : form.RoundTrips a) :
    read form (form.write a) = .ok a := by
  rw [read, trip.decode_self]
  rfl

end Message

end PluginBridge
