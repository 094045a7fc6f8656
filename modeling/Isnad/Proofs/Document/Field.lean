import Isnad.Document
import Isnad.Proofs.Decimal.Value

/-!
# What the checks of fields accept

Each check of a field is silent exactly on the values of a plain shape: identifiers, texts that are
not blank, labels, decimals of the unit interval. A required field must hold such a value
(`Holds`); another may also be absent or null (`MayHold`).
-/

namespace Isnad.Document

open Json

variable {doc : Members} {name pre path : String} {α : Type}

/-! ## Values of a field -/

/-- The field has a value that is not null, with the given property. -/
def Holds (doc : Members) (name : String) (P : Json → Prop) : Prop :=
  ∃ x, doc.lookup name = some x ∧ x ≠ .null ∧ P x

/-- The field is absent or null, or its value has the given property. -/
def MayHold (doc : Members) (name : String) (P : Json → Prop) : Prop :=
  ∀ x, doc.lookup name = some x → x ≠ .null → P x

theorem present?_eq_some_iff {x : Json} :
    present? doc name = some x ↔ doc.lookup name = some x ∧ x ≠ .null := by
  unfold present?
  cases doc.lookup name with
  | none => simp
  | some y => cases y <;> grind

theorem present?_congr {doc' : Members} (h : doc'.lookup name = doc.lookup name) :
    present? doc' name = present? doc name := by
  rw [present?, h, ← present?]

theorem holds_iff {P : Json → Prop} : Holds doc name P ↔ ∃ x, present? doc name = some x ∧ P x := by
  simp [Holds, present?_eq_some_iff, and_assoc]

theorem mayHold_iff {P : Json → Prop} :
    MayHold doc name P ↔ ∀ x, present? doc name = some x → P x := by
  simp [MayHold, present?_eq_some_iff]

theorem Holds.exists_lookup {P Q : Json → Prop} (h : Holds doc name P) (hQ : ∀ x, P x → Q x) :
    ∃ x, doc.lookup name = some x ∧ Q x := by
  obtain ⟨x, hx, -, hP⟩ := h
  exact ⟨x, hx, hQ x hP⟩

theorem MayHold.of_lookup {P : Json → Prop} {x : Json} (h : doc.lookup name = some x) (hP : P x) :
    MayHold doc name P := by
  intro y hy _
  cases h.symm.trans hy
  exact hP

theorem MayHold.imp {P Q : Json → Prop} (h : MayHold doc name P) (hQ : ∀ x, P x → Q x) :
    MayHold doc name Q := fun x hx hn => hQ x (h x hx hn)

/-- A field that must be present is checked as its value is. -/
theorem field_issues_eq_nil_iff {check : String → Json → Checked α} :
    (field doc name pre true check).issues = [] ↔
      Holds doc name fun x => (check (fieldPath pre name) x).issues = [] := by
  rw [holds_iff, field]
  cases present? doc name with
  | none => simp [missing, Checked.fail]
  | some x => simp

theorem field?_issues_eq_nil_iff {check : String → Json → Checked α} :
    (field doc name pre false check).issues = [] ↔
      MayHold doc name fun x => (check (fieldPath pre name) x).issues = [] := by
  rw [mayHold_iff, field]
  cases present? doc name with
  | none => simp [Checked.absent]
  | some x => simp

theorem field_value_eq_some_iff {check : String → Json → Checked α} {isRequired : Bool} {a : α} :
    (field doc name pre isRequired check).value = some a ↔
      Holds doc name fun x => (check (fieldPath pre name) x).value = some a := by
  rw [holds_iff, field]
  cases present? doc name with
  | none => cases isRequired <;> simp [missing, Checked.fail, Checked.absent]
  | some x => simp

/-- A field that may be absent has the value that its check reads, if it is there. -/
theorem field?_value {check : String → Json → Checked α} :
    (field doc name pre false check).value =
      (present? doc name).bind fun x => (check (fieldPath pre name) x).value := by
  unfold field
  cases present? doc name <;> rfl

/-! ## Shapes of values -/

/-- An identifier, in any of its spellings. -/
inductive IsUuid : Json → Prop where
  | intro {s : String} {u : Uuid} (h : Uuid.ofString? s = some u) : IsUuid (.str s)

/-- A text with more than blanks. -/
inductive IsText : Json → Prop where
  | intro {s : String} (h : Text.isBlankText s = false) : IsText (.str s)

/-- A time in the form of RFC 3339. -/
inductive IsTime : Json → Prop where
  | intro {s : String} {t : Timestamp} (h : Timestamp.ofRfc3339? s = some t) : IsTime (.str s)

/-- The label of `a`, or an object whose only member is that label with null. -/
inductive Names [Labelled α] (a : α) : Json → Prop where
  | text : Names a (.str (label a))
  | member : Names a (.obj [(label a, .null)])

/-- The label of some element of a closed set. -/
def IsLabel (α : Type) [Labelled α] (x : Json) : Prop := ∃ a : α, Names a x

/-- A number, by the text of its literal, or a numeral in a string, between blanks if there are
any. -/
inductive Reads (d : Decimal) : Json → Prop where
  | number {n : Number} (h : Decimal.ofChars? n.toChars = some d) : Reads d (.num n)
  | string {s : String} (h : Decimal.ofChars? (Text.trim s.toList) = some d) : Reads d (.str s)

/-- A number from zero to one. -/
def IsUnit (x : Json) : Prop := ∃ d, Reads d x ∧ 0 ≤ d.toRat ∧ d.toRat ≤ 1

theorem uuidIssues_eq_nil_iff {s : String} :
    uuidIssues s path = [] ↔ ∃ u, Uuid.ofString? s = some u := by
  unfold uuidIssues
  cases Uuid.ofString? s <;> simp

theorem checkUuid_issues_eq_nil_iff {x : Json} : (checkUuid path x).issues = [] ↔ IsUuid x := by
  constructor
  · intro h
    cases x with
    | str s =>
      obtain ⟨u, hu⟩ := uuidIssues_eq_nil_iff.mp h
      exact .intro hu
    | _ => simp [checkUuid, Checked.fail] at h
  · rintro ⟨h⟩
    exact uuidIssues_eq_nil_iff.mpr ⟨_, h⟩

theorem checkText_issues_eq_nil_iff {x : Json} :
    (checkText name path x).issues = [] ↔ IsText x := by
  constructor
  · intro h
    cases x with
    | str s =>
      cases hs : Text.isBlankText s with
      | true => simp [checkText, hs, Checked.fail] at h
      | false => exact .intro hs
    | _ => simp [checkText, Checked.fail] at h
  · rintro ⟨h⟩
    simp [checkText, h, Checked.ok]

theorem checkText_value_eq_some_iff {x : Json} {s : String} :
    (checkText name path x).value = some s ↔ x = .str s ∧ Text.isBlankText s = false := by
  cases x with
  | str t =>
    cases ht : Text.isBlankText t with
    | true =>
      have hne : ¬ (t = s ∧ Text.isBlankText s = false) := by
        rintro ⟨rfl, hs⟩
        simp [ht] at hs
      simp [checkText, ht, Checked.fail, hne]
    | false =>
      have hst : t = s → Text.isBlankText s = false := fun h => h ▸ ht
      simpa [checkText, ht, Checked.ok] using hst
  | _ => simp [checkText, Checked.fail]

theorem decode_label_eq_ok_iff [Labelled α] {x : Json} {a : α} :
    Json.decode Decoder.label x = .ok a ↔ Names a x := by
  have hfound : ∀ s, found (ofLabel? s) = .ok a ↔ s = label a := by
    intro s
    cases h : (ofLabel? s : Option α) with
    | none =>
      simp only [found, reduceCtorEq, false_iff]
      rintro rfl
      simp at h
    | some b =>
      have hb := label_of_ofLabel? h
      simp only [found, Except.ok.injEq, ← hb]
      exact ⟨congrArg label, label_injective⟩
  constructor
  · intro h
    unfold Json.decode Decoder.label at h
    split at h
    · rename_i s hs
      cases x with
      | str k =>
        simp only [toWritten, Source.str.injEq] at hs
        rw [hs, (hfound s).mp h]
        exact .text
      | _ => simp [toWritten] at hs
    · rename_i s hs
      cases x with
      | obj ms =>
        match ms with
        | [(k, y)] =>
          simp only [toWritten, toWrittenMembers, Source.obj.injEq, List.cons.injEq,
            Prod.mk.injEq, and_true] at hs
          obtain ⟨rfl, hy⟩ := hs
          cases y <;> simp [toWritten] at hy
          rw [(hfound k).mp h]
          exact .member
        | [] => simp [toWritten, toWrittenMembers] at hs
        | _ :: _ :: _ => simp [toWritten, toWrittenMembers] at hs
      | _ => simp [toWritten] at hs
    · cases h
    · cases h
  · rintro (_ | _)
    · exact (hfound _).mpr rfl
    · exact (hfound _).mpr rfl

theorem checkLabel_value_eq_some_iff [Labelled α] {x : Json} {a : α} :
    (checkLabel name path x).value = some a ↔ Names a x := by
  rw [← decode_label_eq_ok_iff, checkLabel]
  cases Json.decode (Decoder.label (α := α)) x <;> simp [Checked.ok, Checked.fail]

theorem checkLabel_issues_eq_nil_iff [Labelled α] {x : Json} :
    (checkLabel name path x : Checked α).issues = [] ↔ IsLabel α x := by
  simp only [IsLabel, ← decode_label_eq_ok_iff, checkLabel]
  cases Json.decode (Decoder.label (α := α)) x <;> simp [Checked.ok, Checked.fail]

theorem decimal?_eq_some_iff {x : Json} {d : Decimal} : decimal? x = some d ↔ Reads d x := by
  constructor
  · intro h
    cases x with
    | num n => exact .number h
    | str s => exact .string h
    | _ => cases h
  · rintro (h | h)
    · exact h
    · exact h

theorem checkUnit_issues_eq_nil_iff {x : Json} :
    (checkUnit name path x).issues = [] ↔ IsUnit x := by
  simp only [IsUnit, ← decimal?_eq_some_iff, ← Decimal.inUnitInterval_iff_toRat, checkUnit]
  cases decimal? x with
  | none => simp [Checked.fail]
  | some d => cases hd : d.inUnitInterval <;> simp [hd, Checked.fail, Checked.ok]

/-! ## Checks of fields -/

theorem uuid_issues_eq_nil_iff : (uuid doc name pre).issues = [] ↔ Holds doc name IsUuid := by
  simp [uuid, field_issues_eq_nil_iff, checkUuid_issues_eq_nil_iff]

theorem uuid?_issues_eq_nil_iff : (uuid? doc name pre).issues = [] ↔ MayHold doc name IsUuid := by
  simp [uuid?, field?_issues_eq_nil_iff, checkUuid_issues_eq_nil_iff]

theorem text_issues_eq_nil_iff : (text doc name pre).issues = [] ↔ Holds doc name IsText := by
  simp [text, field_issues_eq_nil_iff, checkText_issues_eq_nil_iff]

theorem text_value_eq_some_iff {s : String} :
    (text doc name pre).value = some s ↔
      Holds doc name fun x => x = .str s ∧ Text.isBlankText s = false := by
  simp [text, field_value_eq_some_iff, checkText_value_eq_some_iff]

theorem labelled_issues_eq_nil_iff [Labelled α] :
    (labelled doc name pre true : Checked α).issues = [] ↔ Holds doc name (IsLabel α) := by
  simp [labelled, field_issues_eq_nil_iff, checkLabel_issues_eq_nil_iff]

theorem labelled?_issues_eq_nil_iff [Labelled α] :
    (labelled doc name pre false : Checked α).issues = [] ↔ MayHold doc name (IsLabel α) := by
  simp [labelled, field?_issues_eq_nil_iff, checkLabel_issues_eq_nil_iff]

theorem labelled_value_eq_some_iff [Labelled α] {isRequired : Bool} {a : α} :
    (labelled doc name pre isRequired).value = some a ↔ Holds doc name (Names a) := by
  simp [labelled, field_value_eq_some_iff, checkLabel_value_eq_some_iff]

theorem unit_issues_eq_nil_iff : (unit doc name pre true).issues = [] ↔ Holds doc name IsUnit := by
  simp [unit, field_issues_eq_nil_iff, checkUnit_issues_eq_nil_iff]

theorem unit?_issues_eq_nil_iff :
    (unit doc name pre false).issues = [] ↔ MayHold doc name IsUnit := by
  simp [unit, field?_issues_eq_nil_iff, checkUnit_issues_eq_nil_iff]

end Isnad.Document
