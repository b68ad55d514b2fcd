import Reconnect.Broker.Headers
import Reconnect.Proofs.Text.Lenient

/-!
# Headers and the fields that carry them

Headers are sent as long texts and come back as they were (`headers_ofHeaders`). Of any fields,
those that hold a text are the headers, whatever bytes a long text has (`get?_headers_eq_some_iff`).
So a message that was published with a name is delivered under that name, and one whose fields give
no name has the one outside them (`headers_faithful`).
-/

namespace Reconnect.Broker

/-- A field holds a text if it is a long text that reads as it, or that short text. -/
theorem FieldValue.text?_eq_some_iff {v : FieldValue} {text : String} : v.text? = some text ↔
    (∃ bytes, v = .long bytes ∧ Text.Lenient bytes text.toList) ∨ v = .short text := by
  cases v with
  | long bytes => simp [FieldValue.text?, Text.ofUtf8Lossy_eq_iff]
  | short s => simp [FieldValue.text?]
  | other type => simp [FieldValue.text?]

/-- Only a field that is neither a long nor a short text holds none. -/
theorem FieldValue.isSome_text?_iff {v : FieldValue} : v.text?.isSome = true ↔
    (∃ bytes, v = .long bytes) ∨ ∃ text, v = .short text := by
  cases v with
  | long bytes => simp [FieldValue.text?]
  | short s => simp [FieldValue.text?]
  | other type => simp [FieldValue.text?]

namespace FieldTable

/-- Headers come back from the fields that carry them. -/
theorem headers_ofHeaders (hs : Headers) : (ofHeaders hs).headers = hs := by
  apply SortedTable.ext_entries
  show (ofHeaders hs).entries.filterMap (fun e => e.2.text?.map fun text => (e.1, text)) =
    hs.entries
  rw [ofHeaders, SortedTable.entries_map, List.filterMap_map]
  have hback : ∀ e : String × String,
      (FieldValue.text? (.long (Text.utf8 e.2))).map (fun text => (e.1, text)) = some e := by
    intro e
    rw [FieldValue.text?, Text.ofUtf8Lossy_utf8, Option.map_some]
  simp only [Function.comp_def, hback, List.filterMap_some]

theorem get?_headers (t : FieldTable) (k : String) :
    t.headers.get? k = (t.get? k).bind FieldValue.text? :=
  SortedTable.get?_filterMap (fun _ => FieldValue.text?) t k

theorem get?_headers_eq_some_iff {t : FieldTable} {k text : String} :
    t.headers.get? k = some text ↔
      (∃ bytes, t.get? k = some (.long bytes) ∧ Text.Lenient bytes text.toList) ∨
        t.get? k = some (.short text) := by
  rw [get?_headers, Option.bind_eq_some_iff]
  simp only [FieldValue.text?_eq_some_iff]
  constructor
  · rintro ⟨v, hv, ⟨bytes, rfl, hbytes⟩ | rfl⟩
    · exact .inl ⟨bytes, hv, hbytes⟩
    · exact .inr hv
  · rintro (⟨bytes, hv, hbytes⟩ | hv)
    · exact ⟨_, hv, .inl ⟨bytes, rfl, hbytes⟩⟩
    · exact ⟨_, hv, .inr rfl⟩

/-- The headers have the keys of the fields that are texts. -/
theorem contains_headers_iff {t : FieldTable} {k : String} : t.headers.contains k = true ↔
    (∃ bytes, t.get? k = some (.long bytes)) ∨ ∃ text, t.get? k = some (.short text) := by
  rw [SortedTable.contains, get?_headers, Option.isSome_bind]
  cases t.get? k with
  | none => simp
  | some v => simp [FieldValue.isSome_text?_iff]

end FieldTable

namespace Parcel

/-- A message that was published under a name is delivered under it. -/
theorem messageId_ofPublished (body : Bytes) (hs : Headers) (redelivered : Bool) :
    (ofPublished body hs redelivered).messageId = hs.get? messageIdHeader := by
  have hheaders : (ofPublished body hs redelivered).headers = hs :=
    FieldTable.headers_ofHeaders hs
  rw [messageId, hheaders]
  exact Option.or_self

/-- Without a field that names the message, the property does. -/
theorem messageId_of_no_text {p : Parcel}
    (h : ∀ t v, p.fields = some t → t.get? messageIdHeader = some v → v.text? = none) :
    p.messageId = p.idProperty := by
  have hnone : p.headers.get? messageIdHeader = none := by
    rw [Parcel.headers]
    cases hf : p.fields with
    | none => rfl
    | some t =>
      show t.headers.get? messageIdHeader = none
      rw [FieldTable.get?_headers]
      cases hv : t.get? messageIdHeader with
      | none => rfl
      | some v => exact h t v hf hv
  rw [messageId, hnone, Option.none_or]

end Parcel

/-- Headers come back from the fields that carry them, and so do the headers among any fields; these
are the fields that are texts, a long text being read leniently. A message is delivered under the
name that it was published with, and a message whose fields give no name under the one outside
them. -/
theorem headers_faithful (hs : Headers) (t : FieldTable) (p : Parcel) :
    (FieldTable.ofHeaders hs).headers = hs ∧
      (∀ k, t.headers.contains k = true ↔
        (∃ bytes, t.get? k = some (.long bytes)) ∨ ∃ text, t.get? k = some (.short text)) ∧
      (∀ k text, t.headers.get? k = some text ↔
        (∃ bytes, t.get? k = some (.long bytes) ∧ Text.Lenient bytes text.toList) ∨
          t.get? k = some (.short text)) ∧
      (FieldTable.ofHeaders t.headers).headers = t.headers ∧
      (∀ id body redelivered, hs.get? messageIdHeader = some id →
        (Parcel.ofPublished body hs redelivered).messageId = some id) ∧
      ((∀ fields bytes, p.fields = some fields →
          fields.get? messageIdHeader ≠ some (.long bytes)) →
        (∀ fields text, p.fields = some fields →
          fields.get? messageIdHeader ≠ some (.short text)) →
        p.messageId = p.idProperty) := by
  refine ⟨FieldTable.headers_ofHeaders hs, fun k => FieldTable.contains_headers_iff,
    fun k text => FieldTable.get?_headers_eq_some_iff, FieldTable.headers_ofHeaders t.headers,
    ?_, ?_⟩
  · intro id body redelivered hid
    rw [Parcel.messageId_ofPublished, hid]
  · intro hlong hshort
    apply Parcel.messageId_of_no_text
    intro fields v hf hv
    cases v with
    | long bytes => exact absurd hv (hlong fields bytes hf)
    | short text => exact absurd hv (hshort fields text hf)
    | other type => rfl

/-- Fields with a name that is no text, and with a long text that is not UTF-8: after a letter stand
a byte that begins no character and two that begin one. -/
def awkwardFields : FieldTable :=
  .ofList [("source", .long [0x61, 0xff, 0xe2, 0x82]), ("message_id", .other "i32")]

theorem headers_awkwardFields :
    (Parcel.ofPublished [] (.ofList [("message_id", "m-1")]) false).messageId = some "m-1" ∧
      awkwardFields.headers.get? "source" = some "a\ufffd\ufffd" ∧
      (Parcel.mk [] (some awkwardFields) (some "p-1") false).messageId = some "p-1" := by
  obtain ⟨-, -, hget, -, hpublished, hproperty⟩ := headers_faithful
    (.ofList [("message_id", "m-1")]) awkwardFields ⟨[], some awkwardFields, some "p-1", false⟩
  have hsource : awkwardFields.get? "source" = some (.long [0x61, 0xff, 0xe2, 0x82]) := by decide
  have hid : awkwardFields.get? messageIdHeader = some (.other "i32") := by decide
  refine ⟨hpublished "m-1" [] false (by decide), (hget "source" _).2 (.inl ⟨_, hsource, ?_⟩),
    hproperty ?_ ?_⟩
  · exact Text.ofUtf8Lossy_eq_iff.1 (by decide)
  · rintro fields bytes ⟨⟩ hlong
    rw [hid] at hlong
    cases hlong
  · rintro fields text ⟨⟩ hshort
    rw [hid] at hshort
    cases hshort

end Reconnect.Broker
