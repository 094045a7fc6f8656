import Isnad.Json.Decode
import Isnad.Proofs.Json.Ordered
import Isnad.Proofs.Json.Token

/-!
# Values that are read back from their text

A value is read back from its compact text if it is not nested too deep and each of its numbers is
read back (`ofString?_compact`). Where a number stands before a comma or a bracket it is read as if
it stood alone. The steps of the reader are bounded by the length of the text, which is enough since
each step takes at least one character.
-/

namespace Isnad.Json

open Reader

variable {depth fuel : Nat} {x : Json} {rest : List Char}

/-- The text of the value can be read at that depth. Arrays and objects can stand only so deep, and
some numbers are rounded where they are read. -/
inductive IsReadable : Nat → Json → Prop where
  | null {depth : Nat} : IsReadable depth .null
  | bool {depth : Nat} (b : Bool) : IsReadable depth (.bool b)
  | num {depth : Nat} {n : Number} (h : n.IsReadBack) : IsReadable depth (.num n)
  | str {depth : Nat} (s : String) : IsReadable depth (.str s)
  | arr {depth : Nat} {items : List Json} (hdepth : depth < maxDepth)
      (h : ∀ x ∈ items, IsReadable (depth + 1) x) : IsReadable depth (.arr items)
  | obj {depth : Nat} {members : List (String × Json)} (hdepth : depth < maxDepth)
      (h : ∀ m ∈ members, IsReadable (depth + 1) m.2) : IsReadable depth (.obj members)

/-- With a step for each character and one more, the text is read back before whatever ends it. -/
def ReadsBack (depth : Nat) (x : Json) : Prop :=
  ∀ fuel rest, x.chars.length ≤ fuel → EndsNumeral rest →
    ∃ w, value (fuel + 1) depth (x.chars ++ rest) = some (w, rest) ∧ numbers w = x.toWritten

namespace Reader

theorem skipSpace_cons {c : Char} (h : isSpace c = false) (cs : List Char) :
    skipSpace (c :: cs) = c :: cs := by
  simp [skipSpace, h]

theorem isSpace_of_isDigit {c : Char} (h : c.isDigit = true) : isSpace c = false := by
  simp only [isSpace, Bool.or_eq_false_iff, decide_eq_false_iff_not]
  refine ⟨⟨⟨?_, ?_⟩, ?_⟩, ?_⟩ <;> rintro rfl <;> cases h

theorem value_numeral {n : Numeral} {cs : List Char} (h : numeral? cs = some (n, rest)) :
    value (fuel + 1) depth cs = some (.num n, rest) := by
  obtain ⟨c, cs, rfl, hc⟩ := exists_head_of_numeral? h
  have hspace : isSpace c = false := by
    rcases hc with rfl | hc
    · rfl
    · exact isSpace_of_isDigit hc
  have hne : ∀ d, d ≠ '-' → d.isDigit = false → c ≠ d := by
    rintro d hminus hdigit rfl
    rcases hc with hc | hc
    · exact hminus hc
    · rw [hdigit] at hc
      cases hc
  rw [value, skipSpace_cons hspace]
  split
  iterate 6
    · rename_i heq
      exact absurd (List.cons.inj heq).1 (hne _ (by decide) rfl)
  · rw [h]
    rfl

end Reader

/-- The first character of a text is not taken for a space or a closing bracket. -/
theorem IsReadable.exists_head (h : x.IsReadable depth) :
    ∃ c cs, x.chars = c :: cs ∧ isSpace c = false ∧ c ≠ ']' := by
  cases h with
  | null => exact ⟨_, _, rfl, rfl, by decide⟩
  | bool b => cases b <;> exact ⟨_, _, rfl, rfl, by decide⟩
  | num h =>
    obtain ⟨m, hm, -⟩ := h
    obtain ⟨c, cs, hcs, hc⟩ := exists_head_of_numeral? hm
    refine ⟨c, cs, hcs, ?_⟩
    rcases hc with rfl | hc
    · exact ⟨rfl, by decide⟩
    · refine ⟨isSpace_of_isDigit hc, ?_⟩
      rintro rfl
      cases hc
  | str s => exact ⟨_, _, rfl, rfl, by decide⟩
  | @arr _ xs => cases xs <;> exact ⟨_, _, rfl, rfl, by decide⟩
  | @obj _ ms => cases ms <;> exact ⟨_, _, rfl, rfl, by decide⟩

/-! ## Items and members -/

section Steps

variable {cs cs' : List Char} {w : Source Numeral} {ws : List (Source Numeral)} {name : String}
  {ms : List (Option String × Source Numeral)}

theorem Reader.items_last (h : value fuel depth cs = some (w, ']' :: rest)) :
    items (fuel + 1) depth cs = some ([w], rest) := by
  simp [items, h, skipSpace, isSpace]

theorem Reader.items_more (h : value fuel depth cs = some (w, ',' :: cs'))
    (hmore : items fuel depth cs' = some (ws, rest)) :
    items (fuel + 1) depth cs = some (w :: ws, rest) := by
  simp [items, h, hmore, skipSpace, isSpace]

theorem Reader.members_last (h : value fuel depth cs = some (w, '\x7d' :: rest)) :
    members (fuel + 1) depth (stringChars name ++ ':' :: cs) = some ([(some name, w)], rest) := by
  have hname := string?_append name (':' :: cs)
  simp [members, stringChars, h, hname, skipSpace, isSpace]

theorem Reader.members_more (h : value fuel depth cs = some (w, ',' :: cs'))
    (hmore : members fuel depth cs' = some (ms, rest)) :
    members (fuel + 1) depth (stringChars name ++ ':' :: cs) =
      some ((some name, w) :: ms, rest) := by
  have hname := string?_append name (':' :: cs)
  simp [members, stringChars, h, hmore, hname, skipSpace, isSpace]

end Steps

/-- The items of an array are read one after the other. -/
theorem exists_items {xs : List Json} (hx : x.ReadsBack depth) (hxs : ∀ y ∈ xs, y.ReadsBack depth)
    (hfuel : (x.chars ++ itemChars xs).length ≤ fuel) (rest : List Char) :
    ∃ ws, items (fuel + 1) depth (x.chars ++ itemChars xs ++ rest) = some (ws, rest) ∧
      itemNumbers ws = toWrittenItems (x :: xs) := by
  induction xs generalizing x fuel with
  | nil =>
    rw [List.length_append, itemChars, List.length_singleton] at hfuel
    -- the step spent here is the one for the bracket, so that the item keeps its own
    obtain ⟨fuel, rfl⟩ := Nat.exists_eq_add_one_of_ne_zero (show fuel ≠ 0 by omega)
    obtain ⟨w, hw, hnumbers⟩ := hx fuel (']' :: rest) (by omega) (.bracket _)
    refine ⟨[w], ?_, by rw [itemNumbers, hnumbers]; rfl⟩
    rw [itemChars, List.append_assoc]
    exact items_last hw
  | cons y ys ih =>
    obtain ⟨hy, hys⟩ := List.forall_mem_cons.mp hxs
    rw [itemChars, List.cons_append, List.length_append, List.length_cons] at hfuel
    obtain ⟨fuel, rfl⟩ := Nat.exists_eq_add_one_of_ne_zero (show fuel ≠ 0 by omega)
    obtain ⟨w, hw, hnumbers⟩ :=
      hx fuel (',' :: (y.chars ++ itemChars ys ++ rest)) (by omega) (.comma _)
    have hrest : (y.chars ++ itemChars ys).length ≤ fuel := by omega
    obtain ⟨ws, hws, hmore⟩ := ih hy hys hrest
    refine ⟨w :: ws, ?_, by rw [itemNumbers, hnumbers, hmore]; rfl⟩
    rw [itemChars, List.append_assoc]
    exact items_more hw hws

/-- The members of an object are read one after the other, with their names. -/
theorem exists_members {name : String} {ms : List (String × Json)} (hx : x.ReadsBack depth)
    (hms : ∀ m ∈ ms, m.2.ReadsBack depth)
    (hfuel : (stringChars name ++ ':' :: x.chars ++ memberChars ms).length ≤ fuel)
    (rest : List Char) :
    ∃ ws : List (String × Source Numeral),
      members (fuel + 1) depth (stringChars name ++ ':' :: x.chars ++ memberChars ms ++ rest) =
          some (ws.map fun m => (some m.1, m.2), rest) ∧
        memberNumbers ws = toWrittenMembers ((name, x) :: ms) := by
  induction ms generalizing name x fuel with
  | nil =>
    rw [List.length_append, memberChars, List.length_singleton, List.length_append,
      List.length_cons] at hfuel
    obtain ⟨fuel, rfl⟩ := Nat.exists_eq_add_one_of_ne_zero (show fuel ≠ 0 by omega)
    obtain ⟨w, hw, hnumbers⟩ := hx fuel ('\x7d' :: rest) (by omega) (.brace _)
    refine ⟨[(name, w)], ?_, by rw [memberNumbers, hnumbers]; rfl⟩
    rw [memberChars, List.append_assoc, List.append_assoc]
    exact members_last hw
  | cons m ms ih =>
    obtain ⟨k, y⟩ := m
    obtain ⟨hy, hys⟩ := List.forall_mem_cons.mp hms
    rw [memberChars, List.cons_append, List.cons_append, List.length_append, List.length_append,
      List.length_cons, List.length_cons] at hfuel
    obtain ⟨fuel, rfl⟩ := Nat.exists_eq_add_one_of_ne_zero (show fuel ≠ 0 by omega)
    obtain ⟨w, hw, hnumbers⟩ := hx fuel
      (',' :: (stringChars k ++ ':' :: y.chars ++ memberChars ms ++ rest)) (by omega) (.comma _)
    have hrest : (stringChars k ++ ':' :: y.chars ++ memberChars ms).length ≤ fuel := by omega
    obtain ⟨ws, hws, hmore⟩ := ih hy hys hrest
    refine ⟨(name, w) :: ws, ?_, by rw [memberNumbers, hnumbers, hmore]; rfl⟩
    rw [memberChars, List.append_assoc, List.append_assoc]
    exact members_more hw hws

/-! ## Values -/

theorem objectOf_map (ms : List (String × Source Numeral)) :
    objectOf (ms.map fun m => (some m.1, m.2)) = .obj ms := by
  have hnames : (ms.map fun m => (some m.1, m.2)).mapM (fun m => m.1.map (·, m.2)) = some ms := by
    induction ms with
    | nil => rfl
    | cons m ms ih => simp [ih]
  rw [objectOf, hnames]

namespace Reader

theorem atDepth_of_lt (hdepth : depth < maxDepth) (w : Source Numeral) :
    atDepth (depth + 1) w = w := if_neg (Nat.not_lt.mpr hdepth)

theorem value_arr {c : Char} {cs : List Char} {ws : List (Source Numeral)}
    (hdepth : depth < maxDepth) (hspace : isSpace c = false) (hc : c ≠ ']')
    (h : items fuel (depth + 1) (c :: cs) = some (ws, rest)) :
    value (fuel + 1) depth ('[' :: c :: cs) = some (.arr ws, rest) := by
  simp [value, skipSpace_cons (c := '[') rfl, skipSpace_cons hspace, hc, h, atDepth_of_lt hdepth]

theorem value_obj {cs : List Char} {ms : List (String × Source Numeral)} (hdepth : depth < maxDepth)
    (h : members fuel (depth + 1) ('"' :: cs) = some (ms.map fun m => (some m.1, m.2), rest)) :
    value (fuel + 1) depth ('\x7b' :: '"' :: cs) = some (.obj ms, rest) := by
  simp [value, skipSpace_cons (c := '\x7b') rfl, skipSpace_cons (c := '"') rfl, h, objectOf_map,
    atDepth_of_lt hdepth]

end Reader

theorem readsBack_arr {xs : List Json} (hdepth : depth < maxDepth)
    (hhead : ∀ y ∈ xs, ∃ c cs, y.chars = c :: cs ∧ isSpace c = false ∧ c ≠ ']')
    (h : ∀ y ∈ xs, y.ReadsBack (depth + 1)) : (arr xs).ReadsBack depth := by
  intro fuel rest hfuel hrest
  cases xs with
  | nil =>
    refine ⟨.arr [], ?_, rfl⟩
    simp [value, chars, skipSpace_cons, isSpace, atDepth_of_lt hdepth]
  | cons y ys =>
    obtain ⟨hy, hys⟩ := List.forall_mem_cons.mp h
    rw [chars, List.cons_append, List.length_cons] at hfuel
    obtain ⟨fuel, rfl⟩ := Nat.exists_eq_add_one_of_ne_zero (show fuel ≠ 0 by omega)
    have hitems : (y.chars ++ itemChars ys).length ≤ fuel := by omega
    obtain ⟨ws, hws, hnumbers⟩ := exists_items hy hys hitems rest
    obtain ⟨c, cs, hcs, hspace, hc⟩ := hhead y List.mem_cons_self
    refine ⟨.arr ws, ?_, by rw [numbers, hnumbers]; rfl⟩
    rw [hcs] at hws
    rw [chars, hcs]
    exact value_arr hdepth hspace hc hws

theorem readsBack_obj {ms : List (String × Json)} (hdepth : depth < maxDepth)
    (h : ∀ m ∈ ms, m.2.ReadsBack (depth + 1)) : (obj ms).ReadsBack depth := by
  intro fuel rest hfuel hrest
  cases ms with
  | nil =>
    refine ⟨.obj [], ?_, rfl⟩
    simp [value, chars, skipSpace_cons, isSpace, atDepth_of_lt hdepth]
  | cons m ms =>
    obtain ⟨k, y⟩ := m
    obtain ⟨hy, hys⟩ := List.forall_mem_cons.mp h
    rw [chars, List.cons_append, List.cons_append, List.length_cons] at hfuel
    obtain ⟨fuel, rfl⟩ := Nat.exists_eq_add_one_of_ne_zero (show fuel ≠ 0 by omega)
    have hmembers : (stringChars k ++ ':' :: y.chars ++ memberChars ms).length ≤ fuel := by omega
    obtain ⟨ws, hws, hnumbers⟩ := exists_members hy hys hmembers rest
    refine ⟨.obj ws, ?_, by rw [numbers, hnumbers]; rfl⟩
    rw [chars]
    exact value_obj hdepth hws

theorem IsReadable.readsBack (h : x.IsReadable depth) : x.ReadsBack depth := by
  induction h with
  | arr hdepth h ih => exact readsBack_arr hdepth (fun y hy => (h y hy).exists_head) ih
  | obj hdepth _ ih => exact readsBack_obj hdepth ih
  | null => exact fun _ _ _ _ => ⟨.null, rfl, rfl⟩
  | bool b => exact fun _ _ _ _ => ⟨.bool b, by cases b <;> rfl, rfl⟩
  | num h =>
    obtain ⟨m, hm, hnumber⟩ := h
    intro fuel rest _ hrest
    refine ⟨.num m, value_numeral (numeral?_append hrest hm), ?_⟩
    rw [numbers, hnumber]
    rfl
  | str s =>
    intro fuel rest _ _
    have hread := string?_append s rest
    refine ⟨.str s, ?_, rfl⟩
    simp [value, chars, stringChars, skipSpace_cons, isSpace, hread]

/-- A readable value is read back from its text. -/
theorem ofString?_compact (h : x.IsReadable 0) :
    Written.ofString? x.compact = some x.toWritten := by
  obtain ⟨w, hw, hnumbers⟩ := h.readsBack (2 * x.chars.length + 1) [] (by omega) .nil
  rw [List.append_nil] at hw
  simp [Written.ofString?, Source.ofString?, Source.ofChars?, compact, hw, hnumbers, skipSpace]

/-! ## Parts of records -/

theorem isReadable_object {members : List (String × Json)} (hdepth : depth < maxDepth)
    (h : ∀ m ∈ members, m.2.IsReadable (depth + 1)) : (object members).IsReadable depth :=
  .obj hdepth fun m hm => h m (mem_of_object rfl hm)

@[simp] theorem isReadable_bool (b : Bool) : (bool b).IsReadable depth := .bool b

@[simp] theorem isReadable_str (s : String) : (str s).IsReadable depth := .str s

@[simp] theorem isReadable_ofLabel {α : Type} [Labelled α] (a : α) :
    (ofLabel a).IsReadable depth := .str _

@[simp] theorem isReadable_ofUuid (u : Uuid) : (ofUuid u).IsReadable depth := .str _

@[simp] theorem isReadable_ofDecimal (d : Decimal) : (ofDecimal d).IsReadable depth := .str _

@[simp] theorem isReadable_ofTimestamp (t : Timestamp) : (ofTimestamp t).IsReadable depth := .str _

@[simp] theorem isReadable_ofOption {α : Type} {g : α → Json} {o : Option α}
    (h : ∀ a, (g a).IsReadable depth) : (ofOption g o).IsReadable depth := by
  cases o with
  | none => exact .null
  | some a => exact h a

theorem isReadable_ofList {α : Type} {g : α → Json} {as : List α} (hdepth : depth < maxDepth)
    (h : ∀ a, (g a).IsReadable (depth + 1)) : (ofList g as).IsReadable depth := by
  refine .arr hdepth fun x hx => ?_
  obtain ⟨a, -, rfl⟩ := List.mem_map.mp hx
  exact h a

theorem isReadable_ofStrings {ss : List String} (hdepth : depth < maxDepth) :
    (ofStrings ss).IsReadable depth := isReadable_ofList hdepth isReadable_str

end Isnad.Json
