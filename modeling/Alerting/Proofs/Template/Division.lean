import Mathlib.Data.List.Infix
import Alerting.Template

/-!
# The parts of a template

A template is divided from left to right. Where a placeholder of a known name begins, it becomes a
part; an opening mark that begins none is passed over, and so is any other character. Which parts
there are depends on the template and on which names are known, and there is only one way to divide
it.
-/

namespace Alerting

namespace Template

/-! ## Marks -/

def opening : List Char := ['\x7b', '\x7b']

def closing : List Char := ['\x7d', '\x7d']

/-- Whether the first closing mark from the beginning of a name on stands right behind it. -/
def Enclosed (name : List Char) : Prop := ¬closing <:+: name ++ ['\x7d']

theorem doubled_prefix_iff {mark char : Char} {rest : List Char} :
    [mark, mark] <+: char :: rest ↔ char = mark ∧ ∃ after, rest = mark :: after := by
  rw [List.cons_prefix_cons]
  cases rest <;> simp [eq_comm]

theorem enclosed_cons {char : Char} {name : List Char} :
    Enclosed (char :: name) ↔ ¬closing <+: char :: (name ++ ['\x7d']) ∧ Enclosed name := by
  unfold Enclosed
  rw [List.cons_append, List.infix_cons_iff, not_or]

theorem splitClosing_of_enclosed {name rest : List Char} (enclosed : Enclosed name) :
    splitClosing (name ++ closing ++ rest) = some (name, rest) := by
  induction name with
  | nil => rfl
  | cons char name ih =>
      obtain ⟨apart, enclosed⟩ := enclosed_cons.mp enclosed
      rw [List.cons_append, List.cons_append, splitClosing.eq_2, ih enclosed]
      · rfl
      · intro after first second
        apply apart
        rw [closing, doubled_prefix_iff]
        cases name with
        | nil => exact ⟨first, _, rfl⟩
        | cons next name =>
            obtain ⟨rfl, -⟩ := List.cons.inj second
            exact ⟨first, _, rfl⟩

theorem enclosed_of_splitClosing {text name rest : List Char}
    (found : splitClosing text = some (name, rest)) :
    text = name ++ closing ++ rest ∧ Enclosed name := by
  fun_induction splitClosing text generalizing name rest with
  | case1 after =>
      obtain ⟨rfl, rfl⟩ := Prod.mk.inj (Option.some.inj found)
      exact ⟨rfl, by unfold Enclosed; decide⟩
  | case2 char tail other ih =>
      obtain ⟨⟨inner, remaining⟩, hinner, same⟩ := Option.map_eq_some_iff.mp found
      obtain ⟨rfl, rfl⟩ := Prod.mk.inj same
      obtain ⟨rfl, enclosed⟩ := ih hinner
      refine ⟨rfl, enclosed_cons.mpr ⟨?_, enclosed⟩⟩
      rw [closing, doubled_prefix_iff]
      rintro ⟨first, after, second⟩
      cases inner with
      | nil => exact other _ first rfl
      | cons next inner =>
          obtain ⟨rfl, -⟩ := List.cons.inj second
          exact other _ first rfl
  | case3 => contradiction

theorem splitClosing_eq_some_iff {text name rest : List Char} :
    splitClosing text = some (name, rest) ↔ text = name ++ closing ++ rest ∧ Enclosed name := by
  constructor
  · exact enclosed_of_splitClosing
  · rintro ⟨rfl, enclosed⟩
    exact splitClosing_of_enclosed enclosed

/-! ## The parts of a template -/

inductive Piece where
  | literal (text : List Char)
  | placeholder (name : String)
deriving DecidableEq, Repr

def pieces (known : String → Bool) (text : List Char) : List Piece :=
  match text with
  | '\x7b' :: '\x7b' :: rest =>
      match _found : splitClosing rest with
      | some (name, after) =>
          if known (String.ofList name) then
            .placeholder (String.ofList name) :: pieces known after
          else .literal ['\x7b', '\x7b'] :: pieces known rest
      | none => .literal ['\x7b', '\x7b'] :: pieces known rest
  | char :: rest => .literal [char] :: pieces known rest
  | [] => []
termination_by text.length
decreasing_by
  · have := length_of_splitClosing _found
    simp only [List.length_cons]
    omega
  all_goals simp only [List.length_cons]; omega

def Piece.text (value : String → Option String) : Piece → List Char
  | .literal text => text
  | .placeholder name => ((value name).getD "").toList

/-- Replacing placeholders as the scan comes to them is dividing the text and then inserting the
values. -/
theorem fill_eq_flatMap_pieces (value : String → Option String) (text : List Char) :
    fill value text =
      (pieces (fun name => (value name).isSome) text).flatMap (Piece.text value) := by
  fun_induction fill value text with
  | case1 rest shown after found ih =>
      obtain ⟨⟨name, tail⟩, split, known⟩ := Option.bind_eq_some_iff.mp found
      obtain ⟨_, has, same⟩ := Option.map_eq_some_iff.mp known
      cases same
      rw [pieces.eq_1]
      split
      · rename_i other behind again
        obtain ⟨rfl, rfl⟩ := Prod.mk.inj (Option.some.inj (split.symm.trans again))
        simp [has, Piece.text, ih]
      · rename_i none
        exact nomatch split.symm.trans none
  | case2 rest unknown ih =>
      rw [pieces.eq_1]
      split
      · rename_i name after split
        have missing : value (String.ofList name) = none := by
          simpa [resolve?, split] using unknown
        simp [missing, Piece.text, ih]
      · simp [Piece.text, ih]
  | case3 char rest plain ih =>
      rw [pieces.eq_2 _ _ _ plain, List.flatMap_cons, ih]
      rfl
  | case4 => rw [pieces.eq_3, List.flatMap_nil]

def Opens (names : List String) (text : List Char) (name : String) (after : List Char) : Prop :=
  text = opening ++ (name.toList ++ closing ++ after) ∧ Enclosed name.toList ∧ name ∈ names

/-- What the parts of a text are when some names are known. An opening mark that does not begin a
placeholder of one of them is a part of its own, and so is any other character. -/
inductive Divides (names : List String) : List Char → List Piece → Prop where
  | nil : Divides names [] []
  | placeholder {text after : List Char} {name : String} {parts : List Piece} :
      Opens names text name after → Divides names after parts →
        Divides names text (.placeholder name :: parts)
  | mark {rest : List Char} {parts : List Piece} :
      (∀ name after, ¬Opens names (opening ++ rest) name after) → Divides names rest parts →
        Divides names (opening ++ rest) (.literal opening :: parts)
  | other {char : Char} {rest : List Char} {parts : List Piece} :
      ¬opening <+: char :: rest → Divides names rest parts →
        Divides names (char :: rest) (.literal [char] :: parts)

def Piece.source : Piece → List Char
  | .literal text => text
  | .placeholder name => opening ++ name.toList ++ closing

variable {names : List String} {text : List Char} {parts : List Piece}

theorem not_opens_of_enclosed {name after : List Char} (enclosed : Enclosed name)
    (unknown : String.ofList name ∉ names) (other : String) (behind : List Char) :
    ¬Opens names (opening ++ (name ++ closing ++ after)) other behind := by
  rintro ⟨same, closes, known⟩
  have found : splitClosing (name ++ closing ++ after) = some (name, after) :=
    splitClosing_of_enclosed enclosed
  rw [List.append_cancel_left same, splitClosing_of_enclosed closes] at found
  obtain ⟨rfl, -⟩ := Prod.mk.inj (Option.some.inj found)
  exact unknown (by simpa using known)

theorem divides_pieces (names : List String) (text : List Char) :
    Divides names text (pieces (fun name => name ∈ names) text) := by
  fun_induction pieces (fun name => decide (name ∈ names)) text with
  | case1 rest name after found known ih =>
      obtain ⟨rfl, enclosed⟩ := splitClosing_eq_some_iff.mp found
      refine .placeholder ⟨?_, ?_, of_decide_eq_true known⟩ ih
      · simp [opening]
      · simpa using enclosed
  | case2 rest name after found unknown ih =>
      obtain ⟨rfl, enclosed⟩ := splitClosing_eq_some_iff.mp found
      exact .mark (not_opens_of_enclosed enclosed (by simpa using unknown)) ih
  | case3 rest found ih =>
      refine .mark (fun other behind opens => ?_) ih
      rw [List.append_cancel_left opens.1, splitClosing_of_enclosed opens.2.1] at found
      contradiction
  | case4 char rest plain ih =>
      refine .other (fun marked => ?_) ih
      obtain ⟨first, after, second⟩ := doubled_prefix_iff.mp marked
      exact plain after first second
  | case5 => exact .nil

theorem pieces_opening (known : String → Bool) (rest : List Char) :
    pieces known (opening ++ rest) =
      match splitClosing rest with
      | some (name, after) =>
          if known (String.ofList name) then
            .placeholder (String.ofList name) :: pieces known after
          else .literal opening :: pieces known rest
      | none => .literal opening :: pieces known rest := by
  rw [opening, List.cons_append, List.cons_append, List.nil_append, pieces.eq_1]
  split <;> simp [*]

theorem Divides.eq_pieces (divides : Divides names text parts) :
    parts = pieces (fun name => name ∈ names) text := by
  induction divides with
  | nil => rw [pieces.eq_3]
  | placeholder opens _ ih =>
      obtain ⟨rfl, enclosed, known⟩ := opens
      rw [pieces_opening, splitClosing_of_enclosed enclosed]
      simp [known, ih]
  | mark closed _ ih =>
      rename_i rest _
      rw [pieces_opening]
      split
      · rename_i name after found
        obtain ⟨rfl, enclosed⟩ := splitClosing_eq_some_iff.mp found
        rw [if_neg, ih]
        intro known
        refine closed (String.ofList name) after ⟨?_, ?_, of_decide_eq_true known⟩
        · simp
        · simpa using enclosed
      · rw [ih]
  | other plain _ ih =>
      rw [pieces.eq_2, ih]
      intro after first second
      exact plain (doubled_prefix_iff.mpr ⟨first, after, second⟩)

theorem divides_iff :
    Divides names text parts ↔ parts = pieces (fun name => name ∈ names) text := by
  constructor
  · exact Divides.eq_pieces
  · rintro rfl
    exact divides_pieces ..

theorem Divides.tiles (divides : Divides names text parts) :
    parts.flatMap Piece.source = text := by
  induction divides with
  | nil => rfl
  | placeholder opens _ ih => simp [Piece.source, ih, opens.1]
  | mark _ _ ih => simp [Piece.source, ih]
  | other _ _ ih => simp [Piece.source, ih]

theorem Divides.named (divides : Divides names text parts) {name : String}
    (mem : .placeholder name ∈ parts) : name ∈ names ∧ Enclosed name.toList := by
  induction divides with
  | nil => cases mem
  | placeholder opens _ ih =>
      rcases List.mem_cons.mp mem with same | mem
      · cases same
        exact ⟨opens.2.2, opens.2.1⟩
      · exact ih mem
  | mark _ _ ih => exact ih (by simpa using mem)
  | other _ _ ih => exact ih (by simpa using mem)

theorem Divides.congr {others : List String} (same : ∀ name, name ∈ names ↔ name ∈ others)
    (divides : Divides names text parts) : Divides others text parts := by
  have opens {text : List Char} {name : String} {after : List Char} :
      Opens names text name after ↔ Opens others text name after := by
    unfold Opens
    rw [same]
  induction divides with
  | nil => exact .nil
  | placeholder begins _ ih => exact .placeholder (opens.mp begins) ih
  | mark closed _ ih =>
      exact .mark (fun name after begins => closed name after (opens.mpr begins)) ih
  | other plain _ ih => exact .other plain ih

/-! ## Texts without placeholders -/

theorem Divides.flatMap_text_of_closed {value : String → Option String}
    (divides : Divides names text parts)
    (closed : ∀ front rest, text = front ++ rest → ∀ name after, ¬Opens names rest name after) :
    parts.flatMap (Piece.text value) = text := by
  induction divides with
  | nil => rfl
  | placeholder opens _ _ => exact absurd opens (closed [] _ rfl _ _)
  | mark _ _ ih =>
      rename_i rest _ _ _
      rw [List.flatMap_cons,
        ih fun front back same => closed (opening ++ front) back (by simp [same])]
      rfl
  | other _ _ ih =>
      rename_i char rest _ _ _
      rw [List.flatMap_cons, ih fun front back same => closed (char :: front) back (by simp [same])]
      rfl

theorem Divides.append_plain {front rest : List Char} (plain : ¬opening <:+: front ++ rest.take 1)
    (divides : Divides names rest parts) :
    Divides names (front ++ rest) (front.map (fun char => .literal [char]) ++ parts) := by
  induction front with
  | nil => exact divides
  | cons char front ih =>
      rw [List.cons_append, List.infix_cons_iff, not_or] at plain
      refine .other (fun marked => plain.1 ?_) (ih plain.2)
      obtain ⟨first, after, second⟩ := doubled_prefix_iff.mp marked
      refine doubled_prefix_iff.mpr ⟨first, ?_⟩
      cases front with
      | nil =>
          change rest = _ at second
          exact ⟨[], by simp [second]⟩
      | cons next front =>
          obtain ⟨rfl, -⟩ := List.cons.inj second
          exact ⟨_, rfl⟩

@[simp] theorem flatMap_text_literals (value : String → Option String) (front : List Char) :
    (front.map fun char => Piece.literal [char]).flatMap (Piece.text value) = front := by
  simp [List.flatMap_map, Piece.text]

theorem not_infix_of_not_mem {mark : Char} {list last : List Char} (other : mark ∉ list)
    (short : last.length ≤ 1) : ¬[mark, mark] <:+: list ++ last := by
  intro marked
  have twice := marked.sublist.count_le mark
  have once := last.count_le_length (a := mark)
  rw [List.count_append, List.count_eq_zero_of_not_mem other] at twice
  simp at twice
  omega

theorem not_infix_concat {front : List Char} (plain : ¬opening <:+: front)
    (apart : front.getLast? ≠ some '\x7b') : ¬opening <:+: front ++ ['\x7b'] := by
  rw [List.infix_concat_iff, List.suffix_concat_iff]
  rintro ((empty | ⟨first, same, suffix⟩) | marked)
  · simp [opening] at empty
  · obtain rfl : first = ['\x7b'] := by
      simpa [opening] using (congrArg List.dropLast same).symm
    obtain ⟨start, rfl⟩ := suffix
    simp at apart
  · exact plain marked

theorem enclosed_of_not_mem {name : List Char} (braceless : '\x7d' ∉ name) : Enclosed name :=
  not_infix_of_not_mem braceless (by simp)

theorem not_infix_of_brace {name after : List Char} (braceless : '\x7b' ∉ name) :
    ¬opening <:+: '\x7b' :: name ++ closing ++ after.take 1 := by
  rw [List.cons_append, List.cons_append, List.infix_cons_iff, not_or]
  constructor
  · rw [opening, doubled_prefix_iff]
    rintro ⟨-, behind, next⟩
    cases name with
    | nil => simp [closing] at next
    | cons char rest =>
        obtain ⟨rfl, -⟩ := List.cons.inj next
        exact braceless List.mem_cons_self
  · apply not_infix_of_not_mem
    · simpa [closing] using braceless
    · exact List.length_take_le ..

end Template

end Alerting
