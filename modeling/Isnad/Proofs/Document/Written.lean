import Isnad.Proofs.Decimal.Printer
import Isnad.Proofs.Document.Decimal
import Isnad.Proofs.Document.Record
import Isnad.Proofs.Json.Object
import Isnad.Proofs.Timestamp
import Isnad.Proofs.Uuid

/-!
# Fields that were written

A field that was written is of the kind that its check asks for, and what is read of it is what was
written. An option that is none is written as null, which counts as absent.

Each kind of field has its own law, from the value that is written to the one that is decoded, and
so do the ways to put them together: lists, options, and the members of an object
(`decode_ofList_map`, `option_ofOption_map`, `decode_object`).
-/

namespace Isnad.Document

open Json

variable {doc : Members} {name : String} {α β : Type}

theorem str_ne_null (s : String) : Json.str s ≠ .null := by simp

section Label

variable [Labelled α] {a b : α}

theorem names_ofLabel_iff : Names a (ofLabel b) ↔ a = b := by
  constructor
  · intro h
    generalize hx : ofLabel b = x at h
    cases h with
    | text => exact (label_injective (Json.str.inj hx)).symm
    | member => cases hx
  · rintro rfl
    exact .text

theorem ofLabel_ne_null (a : α) : ofLabel a ≠ .null := by simp [ofLabel]

theorem holds_names_ofLabel (h : doc.lookup name = some (ofLabel a)) : Holds doc name (Names a) :=
  ⟨_, h, ofLabel_ne_null a, .text⟩

theorem holds_ofLabel (h : doc.lookup name = some (ofLabel a)) : Holds doc name (IsLabel α) :=
  ⟨_, h, ofLabel_ne_null a, a, .text⟩

theorem decode_ofLabel (a : α) : Json.decode .label (ofLabel a) = .ok a :=
  decode_label_eq_ok_iff.mpr .text

end Label

theorem isUuid_ofUuid (u : Uuid) : IsUuid (ofUuid u) := .intro u.ofString?_toString

theorem ofUuid_ne_null (u : Uuid) : ofUuid u ≠ .null := by simp [ofUuid]

theorem holds_ofUuid {u : Uuid} (h : doc.lookup name = some (ofUuid u)) : Holds doc name IsUuid :=
  ⟨_, h, ofUuid_ne_null u, isUuid_ofUuid u⟩

theorem decode_ofUuid (u : Uuid) : Json.decode .uuid (ofUuid u) = .ok u :=
  decode_uuid_eq_ok_iff.mpr ⟨_, rfl, u.ofString?_toString⟩

/-- A decimal that was written is read with its value. -/
theorem exists_reads_ofDecimal (d : Decimal) :
    ∃ v, Reads v (ofDecimal d) ∧ v.toRat = d.toRat := by
  obtain ⟨v, hv, hrat⟩ := d.exists_ofChars?_toChars
  exact ⟨v, .string (Decimal.ofChars?_trim (by rwa [Decimal.toString, String.toList_ofList])), hrat⟩

theorem ofDecimal_ne_null (d : Decimal) : ofDecimal d ≠ .null := by simp [ofDecimal]

/-- Of a decimal that was written only the sign of a zero is lost. -/
theorem decode_ofDecimal (d : Decimal) :
    Json.decode .decimal (ofDecimal d) = .ok d.dropZeroSign := by
  refine decimal_str_eq_ok_iff.mpr ?_
  rw [Decimal.toString, String.toList_ofList]
  exact d.ofChars?_toChars

theorem holds_ofTimestamp {t : Timestamp} (ht : 0 ≤ t.date.year ∧ t.date.year ≤ 9999)
    (h : doc.lookup name = some (ofTimestamp t)) : Holds doc name IsTime :=
  ⟨_, h, by simp [ofTimestamp], .intro (Timestamp.ofRfc3339?_toString ht)⟩

theorem decode_ofTimestamp {t : Timestamp} (ht : 0 ≤ t.date.year ∧ t.date.year ≤ 9999) :
    Json.decode .timestamp (ofTimestamp t) = .ok t :=
  found_eq_ok_iff.mpr (Timestamp.ofString?_of_ofRfc3339? (Timestamp.ofRfc3339?_toString ht))

theorem decode_bool (b : Bool) : Json.decode .bool (.bool b) = .ok b := rfl

theorem decode_str (s : String) : Json.decode .string (.str s) = .ok s := rfl

/-! ## Lists -/

section List

variable {g : α → Json} {as : List α}

/-- A list is read back item by item. -/
theorem decode_ofList_map {d : Decoder β} {k : α → β}
    (hd : ∀ a ∈ as, Json.decode d (g a) = .ok (k a)) :
    Json.decode (.list d) (ofList g as) = .ok (as.map k) := by
  refine decode_list_eq_ok_iff.mpr ⟨_, rfl, ?_⟩
  rw [List.forall₂_map_left_iff, List.forall₂_map_right_iff, List.forall₂_same]
  exact hd

theorem decode_ofList {d : Decoder α} (hd : ∀ a, Json.decode d (g a) = .ok a) :
    Json.decode (.list d) (ofList g as) = .ok as := by
  have hread : Json.decode (.list d) (ofList g as) = .ok (as.map id) :=
    decode_ofList_map fun a _ => hd a
  rwa [List.map_id] at hread

end List

theorem decode_ofStrings (ss : List String) : Json.decode (.list .string) (ofStrings ss) = .ok ss :=
  decode_ofList decode_str

/-! ## Options -/

section Option

variable {g : α → Json} {o : Option α} (h : doc.lookup name = some (ofOption g o))
  (hnull : ∀ a, g a ≠ .null)
include h hnull

theorem present?_ofOption : present? doc name = o.map g := by
  cases o with
  | none => simp [present?, h, ofOption]
  | some a => exact present?_eq_some_iff.mpr ⟨h, hnull a⟩

theorem mayHold_ofOption {P : Json → Prop} (hP : ∀ a ∈ o, P (g a)) : MayHold doc name P := by
  rw [mayHold_iff, present?_ofOption h hnull]
  intro x hx
  obtain ⟨a, ha, rfl⟩ := Option.map_eq_some_iff.mp hx
  exact hP a ha

variable {l : Layout} {f : Fields Number} {d : Decoder β}
  (hf : l.read (Json.obj doc).toWritten = .ok f) (hn : name ∈ l.names)
include hf hn

/-- An option is read back if what it holds is. -/
theorem option_ofOption_map {k : α → β} (hd : ∀ a ∈ o, Json.decode d (g a) = .ok (k a)) :
    f.option name d = .ok (o.map k) := by
  rw [option_eq_ok_iff hf hn, present?_ofOption h hnull]
  cases o with
  | none => rfl
  | some a => exact ⟨k a, rfl, hd a rfl⟩

theorem option_ofOption {d : Decoder α} (hd : ∀ a, Json.decode d (g a) = .ok a) :
    f.option name d = .ok o := by
  have hread := option_ofOption_map h hnull hf hn (k := id) fun a _ => hd a
  rwa [Option.map_id_fun, id] at hread

end Option

theorem mayHold_isUuid_ofOption {o : Option Uuid}
    (h : doc.lookup name = some (ofOption ofUuid o)) : MayHold doc name IsUuid :=
  mayHold_ofOption h ofUuid_ne_null fun u _ => isUuid_ofUuid u

theorem option_ofDecimal {o : Option Decimal} {l : Layout} {f : Fields Number}
    (h : doc.lookup name = some (ofOption ofDecimal o))
    (hf : l.read (Json.obj doc).toWritten = .ok f) (hn : name ∈ l.names) :
    f.option name .decimal = .ok (o.map Decimal.dropZeroSign) :=
  option_ofOption_map h ofDecimal_ne_null hf hn fun d _ => decode_ofDecimal d

/-! ## Members -/

/-- A record is read back from an object if it is made of the members that were written. -/
theorem decode_object (l : Layout) {members : Members}
    {make : Fields Number → Except DecodeError α} {a : α}
    (h : ∀ {doc f}, l.read (Json.obj doc).toWritten = .ok f →
      (∀ key, doc.lookup key = members.reverse.lookup key) → make f = .ok a) :
    Json.decode (fun w => l.read w >>= make) (object members) = .ok a := by
  obtain ⟨doc, hdoc, hmember⟩ := exists_object members
  obtain ⟨f, hf⟩ := exists_read l ((pairwise_object hdoc).imp fun hlt => ne_of_lt hlt)
  rw [hdoc, decode, bind_eq_ok_iff]
  exact ⟨f, hf, h hf hmember⟩

section Fields

variable {l : Layout} {f : Fields Number} {d : Decoder α} {x : Json} {a : α}
  (hf : l.read (Json.obj doc).toWritten = .ok f) (hn : name ∈ l.names)
  (h : doc.lookup name = some x) (hd : Json.decode d x = .ok a)
include hf hn h hd

theorem required_of_lookup : f.required name d = .ok a :=
  (required_eq_ok_iff hf hn).mpr ⟨x, h, hd⟩

theorem orElse_of_lookup {absent : α} : f.orElse name d absent = .ok a := by
  rw [orElse_eq_ok_iff hf hn, h]
  exact hd

end Fields

end Isnad.Document
