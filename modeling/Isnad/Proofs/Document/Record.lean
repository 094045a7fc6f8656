import Isnad.Proofs.Document.Field
import Isnad.Proofs.Json.Ordered
import Isnad.Proofs.Json.Record
import Isnad.Proofs.Timestamp

/-!
# Records in documents

The fields of a record are members of its document. So what is read of a field, and whether
anything is, depends on the member of its name alone. A required field can be read if its member is
there and can be; a field with a value of its own for its absence if its member is not there or can
be, where a null is a member like any other; and an optional field if its member is not there, is
null, or can be (`exists_required_iff`, `exists_orElse_iff`, `exists_option_iff`).
-/

namespace Isnad

/-- The value can be read. -/
def Json.Decodes {α : Type} (d : Json.Decoder α) (x : Json) : Prop := ∃ a, Json.decode d x = .ok a

namespace Document

open Json

variable {doc : Members} {l : Layout} {f : Fields Number} {name : String} {α : Type}
  {d : Decoder α} {a : α} {x : Json}

/-! ## Reading a field -/

/-- An object without repeated names has the fields of any record. -/
theorem exists_read (l : Layout) (h : (doc.map Prod.fst).Nodup) :
    ∃ f, l.read (Json.obj doc).toWritten = .ok f := by
  have honce : ∀ n, (toWrittenMembers doc).countP (fun m => m.1 == n) ≤ 1 := by
    intro n
    have hcount := List.nodup_iff_count_le_one.mp h n
    rw [List.count, List.countP_map] at hcount
    rw [toWrittenMembers_eq_map, List.countP_map]
    exact hcount
  rw [toWritten, Layout.read, Layout.ofMembers, if_neg]
  · exact ⟨_, rfl⟩
  · simp only [List.any_eq_true, decide_eq_true_eq, not_exists, not_and, not_lt]
    exact fun n _ => honce n

theorem lookup_of_read (h : l.read (Json.obj doc).toWritten = .ok f) (hn : name ∈ l.names) :
    f.entries.lookup name = (doc.lookup name).map toWritten := by
  rw [toWritten] at h
  rw [Layout.lookup_of_read h hn, toWrittenMembers_eq_map, lookup_map]

section Fields

variable (h : l.read (Json.obj doc).toWritten = .ok f) (hn : name ∈ l.names)
include h hn

theorem required_eq_ok_iff :
    f.required name d = .ok a ↔ ∃ x, doc.lookup name = some x ∧ Json.decode d x = .ok a := by
  rw [Fields.required_eq_ok_iff, lookup_of_read h hn]
  cases doc.lookup name <;> simp [Json.decode]

theorem orElse_eq_ok_iff {absent : α} :
    f.orElse name d absent = .ok a ↔
      match doc.lookup name with
      | none => absent = a
      | some x => Json.decode d x = .ok a := by
  rw [Fields.orElse, lookup_of_read h hn]
  cases doc.lookup name <;> simp [Json.decode]

theorem option_eq_ok_iff {o : Option α} :
    f.option name d = .ok o ↔
      match present? doc name with
      | none => o = none
      | some x => ∃ a, o = some a ∧ Json.decode d x = .ok a := by
  rw [Fields.option_eq_ok_iff, lookup_of_read h hn]
  cases hx : doc.lookup name with
  | none => simp [present?, hx]
  | some x => cases x <;> simp [present?, hx, toWritten, Json.decode]

/-- A required field is present in the document, if null is no value for it. -/
theorem present?_of_required (hnull : d .null ≠ .ok a) (ha : f.required name d = .ok a) :
    ∃ x, present? doc name = some x ∧ Json.decode d x = .ok a := by
  obtain ⟨x, hx, hd⟩ := (required_eq_ok_iff h hn).mp ha
  refine ⟨x, present?_eq_some_iff.mpr ⟨hx, ?_⟩, hd⟩
  rintro rfl
  exact hnull hd

/-- A field that is not required is absent, or has a value that is no null. -/
theorem present?_of_orElse {absent : α} (hnull : d .null ≠ .ok a)
    (ha : f.orElse name d absent = .ok a) :
    (present? doc name = none ∧ a = absent) ∨
      ∃ x, present? doc name = some x ∧ Json.decode d x = .ok a := by
  rw [orElse_eq_ok_iff h hn] at ha
  cases hx : doc.lookup name with
  | none =>
    rw [hx] at ha
    exact .inl ⟨by simp [present?, hx], ha.symm⟩
  | some x =>
    rw [hx] at ha
    refine .inr ⟨x, present?_eq_some_iff.mpr ⟨hx, ?_⟩, ha⟩
    rintro rfl
    exact hnull ha

/-! ## Whether a field can be read -/

theorem exists_required_iff :
    (∃ a, f.required name d = .ok a) ↔ ∃ x, doc.lookup name = some x ∧ Decodes d x := by
  simp only [required_eq_ok_iff h hn, Decodes]
  exact ⟨fun ⟨a, x, hx, ha⟩ => ⟨x, hx, a, ha⟩, fun ⟨x, hx, a, ha⟩ => ⟨a, x, hx, ha⟩⟩

theorem exists_orElse_iff {absent : α} :
    (∃ a, f.orElse name d absent = .ok a) ↔ ∀ x, doc.lookup name = some x → Decodes d x := by
  simp only [orElse_eq_ok_iff h hn, Decodes]
  cases doc.lookup name <;> simp

theorem exists_option_iff :
    (∃ o, f.option name d = .ok o) ↔ MayHold doc name (Decodes d) := by
  simp only [option_eq_ok_iff h hn, mayHold_iff, Decodes]
  cases present? doc name with
  | none => simp
  | some x => simp

end Fields

/-! ## Values that can be read -/

theorem decodes_uuid_iff : Decodes .uuid x ↔ IsUuid x := by
  simp only [Decodes, decode_uuid_eq_ok_iff]
  constructor
  · rintro ⟨u, s, rfl, hs⟩
    exact .intro hs
  · rintro ⟨hs⟩
    exact ⟨_, _, rfl, hs⟩

theorem decodes_label_iff [Labelled α] : Decodes (.label : Decoder α) x ↔ IsLabel α x := by
  simp only [Decodes, decode_label_eq_ok_iff, IsLabel]

theorem decode_string_eq_ok_iff {s : String} : Json.decode .string x = .ok s ↔ x = .str s := by
  cases x <;> simp [Json.decode, toWritten, Decoder.string]

theorem decode_bool_eq_ok_iff {b : Bool} : Json.decode .bool x = .ok b ↔ x = .bool b := by
  cases x <;> simp [Json.decode, toWritten, Decoder.bool]

theorem decodes_of_isText (h : IsText x) : Decodes .string x := by
  obtain ⟨-⟩ := h
  exact ⟨_, decode_string_eq_ok_iff.mpr rfl⟩

theorem decodes_of_isTime (h : IsTime x) : Decodes .timestamp x := by
  obtain ⟨h⟩ := h
  exact ⟨_, found_eq_ok_iff.mpr (Timestamp.ofString?_of_ofRfc3339? h)⟩

theorem decode_json (x : OrderedJson) : Json.decode .json x.toJson = .ok x :=
  found_eq_ok_iff.mpr (ordered?_toWritten x)

theorem decodes_list_iff :
    Decodes (.list d) x ↔ ∃ items, x = .arr items ∧ ∀ y ∈ items, Decodes d y := by
  simp only [Decodes, decode_list_eq_ok_iff, ← exists_forall₂_iff]
  exact ⟨fun ⟨as, items, hx, h⟩ => ⟨items, hx, as, h⟩, fun ⟨items, hx, as, h⟩ => ⟨as, items, hx, h⟩⟩

end Document
end Isnad
