import Alerting.Proofs.Template.Division

/-!
# What templates become

All values are inserted in one pass: which parts of a template are placeholders is settled by the
names that are known, whatever their values are, and a value is never read as a template. A
placeholder of a known name is replaced wherever the scan comes to its opening mark. The scan passes
over that mark if the character before it is a brace as well, for it goes on two characters behind a
mark that it has kept.
-/

namespace Alerting

namespace Template

variable {names : List String} {parts : List Piece} {rule : Rule} {event : Event}

/-! ## Values -/

def ownNames : List String := ["rule_name", "event_name", "metric_name", "object_type"]

def knownNames (event : Event) : List String := ownNames ++ event.properties.names

theorem isSome_get? {properties : Properties} {name : String} :
    (properties.get? name).isSome ↔ name ∈ properties.names := by
  simp [Properties.get?, Properties.names, List.lookup_isSome_iff]

theorem value?_of_not_own {name : String} (other : name ∉ ownNames) :
    value? rule event name = (event.properties.get? name).map Property.shown := by
  simp only [ownNames, List.mem_cons, List.not_mem_nil, or_false, not_or] at other
  obtain ⟨first, second, third, fourth⟩ := other
  rw [value?, if_neg first, if_neg second, if_neg third, if_neg fourth]

theorem isSome_value? {name : String} :
    (value? rule event name).isSome ↔ name ∈ knownNames event := by
  rw [knownNames, List.mem_append]
  by_cases own : name ∈ ownNames
  · simp only [own, true_or, iff_true]
    simp only [ownNames, List.mem_cons, List.not_mem_nil, or_false] at own
    rcases own with rfl | rfl | rfl | rfl <;> simp [value?]
  · rw [value?_of_not_own own]
    simp [own, isSome_get?]

theorem render_of_divides {template : String} (nonempty : template ≠ "")
    (divides : Divides (knownNames event) template.toList parts) :
    (render template rule event).toList = parts.flatMap (Piece.text (value? rule event)) := by
  have known : (fun name => (value? rule event name).isSome) =
      fun name => decide (name ∈ knownNames event) := by
    funext name
    rw [Bool.eq_iff_iff, isSome_value?, decide_eq_true_iff]
  rw [render, if_neg (by simpa using nonempty), String.toList_ofList, fill_eq_flatMap_pieces, known,
    divides.eq_pieces]

theorem value?_congr {other : Event} (sameType : other.objectType = event.objectType)
    (sameTrigger : other.trigger = event.trigger)
    (same : ∀ name, name ∉ ownNames → other.properties.get? name = event.properties.get? name) :
    value? rule other = value? rule event := by
  funext name
  by_cases own : name ∈ ownNames
  · simp only [ownNames, List.mem_cons, List.not_mem_nil, or_false] at own
    rcases own with rfl | rfl | rfl | rfl <;> simp [value?, sameType, sameTrigger]
  · rw [value?_of_not_own own, value?_of_not_own own, same name own]

/-! ## One pass -/

theorem rendered_in_one_pass {template : String} (nonempty : template ≠ "") (rule : Rule)
    (event : Event) :
    ∃ parts : List Piece,
      (∀ others, Divides (knownNames event) template.toList others ↔ others = parts) ∧
      parts.flatMap Piece.source = template.toList ∧
      (∀ rule' event', (∀ name, name ∈ knownNames event ↔ name ∈ knownNames event') →
        (∀ name, .placeholder name ∈ parts → (value? rule' event' name).isSome) ∧
          (render template rule' event').toList =
            parts.flatMap (Piece.text (value? rule' event'))) ∧
      (∀ event', event'.objectType = event.objectType → event'.trigger = event.trigger →
        (∀ name, name ∉ ownNames → event'.properties.get? name = event.properties.get? name) →
          render template rule event' = render template rule event) ∧
      ((∀ front rest, template.toList = front ++ rest →
          ∀ name after, ¬Opens (knownNames event) rest name after) →
        render template rule event = template) := by
  have divides := divides_pieces (knownNames event) template.toList
  refine ⟨_, fun others => divides_iff, divides.tiles, ?_, ?_, ?_⟩
  · intro rule' event' same
    refine ⟨fun name mem => ?_, render_of_divides nonempty (divides.congr same)⟩
    rw [isSome_value?, ← same]
    exact (divides.named mem).1
  · intro event' sameType sameTrigger same
    rw [render, render, if_neg (by simpa using nonempty), if_neg (by simpa using nonempty),
      value?_congr sameType sameTrigger same]
  · intro closed
    apply String.toList_injective
    rw [render_of_divides nonempty divides, divides.flatMap_text_of_closed closed]

def disguised : Rule :=
  { name := "\x7b\x7bnote\x7d\x7d", objectType := "stream", trigger := .event "stream.error" }

def noted (text : String) : Event :=
  (Event.occurrence "stream" "stream.error").withProperty "note" (.text text)

theorem rendered_in_one_pass_of_disguised :
    let template := "\x7b\x7b \x7b\x7bnote\x7d\x7d by \x7b\x7brule_name\x7d\x7d"
    let spoofed := (noted "\x7b\x7brule_name\x7d\x7d").withProperty "rule_name" (.text "spoofed")
    (∃ parts : List Piece, parts.flatMap Piece.source = template.toList ∧
      ∀ text, (render template disguised (noted text)).toList =
        parts.flatMap (Piece.text (value? disguised (noted text)))) ∧
      render template disguised spoofed =
        "\x7b\x7b \x7b\x7brule_name\x7d\x7d by \x7b\x7bnote\x7d\x7d" := by
  intro template spoofed
  have nonempty : template ≠ "" := by
    decide
  obtain ⟨parts, -, tiles, rendered, own, -⟩ :=
    rendered_in_one_pass nonempty disguised (noted "\x7b\x7brule_name\x7d\x7d")
  refine ⟨⟨parts, tiles, fun text => (rendered disguised (noted text) ?_).2⟩, ?_⟩
  · intro name
    rfl
  · rw [own spoofed rfl rfl fun name other => ?_]
    · decide +kernel
    · have different : (name == "rule_name") = false := by
        rw [beq_eq_false_iff_ne]
        rintro rfl
        exact other (by decide)
      change List.lookup name [("note", _), ("rule_name", _)] = List.lookup name [("note", _)]
      rw [List.lookup_cons, List.lookup_cons, List.lookup_cons, different]

/-! ## Placeholders in their surroundings -/

def scanned (rule : Rule) (event : Event) (text : String) : String :=
  if text.isEmpty then "" else render text rule event

theorem exists_divides_scanned (rule : Rule) (event : Event) (after : String) :
    ∃ parts, Divides (knownNames event) after.toList parts ∧
      (scanned rule event after).toList = parts.flatMap (Piece.text (value? rule event)) := by
  have divides := divides_pieces (knownNames event) after.toList
  refine ⟨_, divides, ?_⟩
  unfold scanned
  split
  · rename_i empty
    obtain rfl : after = "" := by simpa using empty
    rw [String.toList_empty, pieces.eq_3]
    rfl
  · rename_i nonempty
    exact render_of_divides (by simpa using nonempty) divides

theorem render_of_append {template : String} {front rest : List Char}
    (same : template.toList = front ++ rest) (plain : ¬opening <:+: front ++ rest.take 1)
    (nonempty : rest ≠ []) (divides : Divides (knownNames event) rest parts) :
    (render template rule event).toList =
      front ++ parts.flatMap (Piece.text (value? rule event)) := by
  have whole := divides.append_plain plain
  rw [← same] at whole
  have filled : template ≠ "" := by
    rintro rfl
    simp [nonempty] at same
  rw [render_of_divides filled whole, List.flatMap_append, flatMap_text_literals]

theorem render_of_reached {front name after value : String}
    (plain : ¬opening <:+: front.toList ++ ['\x7b']) (enclosed : Enclosed name.toList)
    (known : value? rule event name = some value) :
    render (front ++ "\x7b\x7b" ++ name ++ "\x7d\x7d" ++ after) rule event =
      front ++ value ++ scanned rule event after := by
  obtain ⟨parts, divides, rest⟩ := exists_divides_scanned rule event after
  have isSome : (value? rule event name).isSome := by
    simp [known]
  have opens : Opens (knownNames event)
      (opening ++ (name.toList ++ closing ++ after.toList)) name after.toList :=
    ⟨rfl, enclosed, isSome_value?.mp isSome⟩
  apply String.toList_injective
  rw [render_of_append (by simp [opening, closing]) plain (by simp [opening])
    (.placeholder opens divides)]
  simp [rest, Piece.text, known]

theorem render_of_passed_over {front name after : String}
    (plain : ¬opening <:+: front.toList ++ ['\x7b']) (braceless : '\x7b' ∉ name.toList)
    (enclosed : Enclosed ('\x7b' :: name.toList)) (unknown : "\x7b" ++ name ∉ knownNames event) :
    render (front ++ "\x7b\x7b\x7b" ++ name ++ "\x7d\x7d" ++ after) rule event =
      front ++ "\x7b\x7b\x7b" ++ name ++ "\x7d\x7d" ++ scanned rule event after := by
  obtain ⟨parts, divides, rest⟩ := exists_divides_scanned rule event after
  have unknown : String.ofList ('\x7b' :: name.toList) ∉ knownNames event := by
    rwa [String.ofList_cons, String.ofList_toList]
  have behind := divides.append_plain (not_infix_of_brace braceless)
  apply String.toList_injective
  rw [render_of_append (by simp [opening, closing]) plain (by simp [opening])
    (.mark (not_opens_of_enclosed enclosed unknown) behind)]
  simp [rest, Piece.text, opening, closing]

/-- A placeholder of a known name is replaced unless the character before it is a brace as well.
Then the name is taken to begin with the brace, and the placeholder stays as it is if there is no
such name. -/
theorem render_placeholder {before name after : String} (plain : ¬opening <:+: before.toList)
    (known : name ∈ knownNames event) (left : '\x7b' ∉ name.toList) (right : '\x7d' ∉ name.toList) :
    let rendered := render (before ++ "\x7b\x7b" ++ name ++ "\x7d\x7d" ++ after) rule event
    ∃ value, value? rule event name = some value ∧
      (before.toList.getLast? ≠ some '\x7b' →
        rendered = before ++ value ++ scanned rule event after) ∧
      ∀ front, before = front ++ "\x7b" →
        match value? rule event ("\x7b" ++ name) with
        | some other => rendered = front ++ other ++ scanned rule event after
        | none =>
            rendered = before ++ "\x7b\x7b" ++ name ++ "\x7d\x7d" ++ scanned rule event after := by
  obtain ⟨value, hvalue⟩ := Option.isSome_iff_exists.mp (isSome_value?.mpr known)
  refine ⟨value, hvalue, ?_, ?_⟩
  · intro apart
    exact render_of_reached (not_infix_concat plain apart) (enclosed_of_not_mem right) hvalue
  · rintro front rfl
    have plain : ¬opening <:+: front.toList ++ ['\x7b'] := by
      simpa using plain
    have enclosed : Enclosed ("\x7b" ++ name).toList := enclosed_of_not_mem (by simpa using right)
    split
    · rename_i other hother
      have same : front ++ "\x7b" ++ "\x7b\x7b" ++ name = front ++ "\x7b\x7b" ++ ("\x7b" ++ name) :=
        String.toList_injective (by simp)
      rw [same]
      exact render_of_reached plain enclosed hother
    · rename_i missing
      have unknown : "\x7b" ++ name ∉ knownNames event := by
        rw [← isSome_value?, missing]
        simp
      have same : front ++ "\x7b" ++ "\x7b\x7b" ++ name = front ++ "\x7b\x7b\x7b" ++ name :=
        String.toList_injective (by simp)
      rw [same]
      exact render_of_passed_over plain left (by simpa using enclosed) unknown

theorem render_placeholder_of_disguised :
    render "[\x7d \x7b\x7brule_name\x7d\x7d: \x7b\x7bnote\x7d\x7d" disguised (noted "full") =
        "[\x7d \x7b\x7bnote\x7d\x7d: full" ∧
      render "(\x7b\x7b\x7bnote\x7d\x7d)" disguised (noted "full") =
        "(\x7b\x7b\x7bnote\x7d\x7d)" := by
  constructor
  · obtain ⟨value, hvalue, reached, -⟩ :=
      @render_placeholder disguised (noted "full") "[\x7d " "rule_name" ": \x7b\x7bnote\x7d\x7d"
        (by decide) (by decide) (by decide) (by decide)
    obtain rfl : disguised.name = value := Option.some.inj hvalue
    refine (reached (by decide)).trans ?_
    decide +kernel
  · obtain ⟨-, -, -, passed⟩ :=
      @render_placeholder disguised (noted "full") "(\x7b" "note" ")"
        (by decide) (by decide) (by decide) (by decide)
    have passed := passed "(" rfl
    have missing : value? disguised (noted "full") ("\x7b" ++ "note") = none := by
      decide
    rw [missing] at passed
    refine passed.trans ?_
    decide +kernel

/-- Whether the placeholders of known names are replaced wherever they stand. -/
def ReplacedEverywhere : Prop :=
  ∀ (rule : Rule) (event : Event) (before name after value : String),
    ¬opening <:+: before.toList → value? rule event name = some value →
    '\x7b' ∉ name.toList → '\x7d' ∉ name.toList →
    render (before ++ "\x7b\x7b" ++ name ++ "\x7d\x7d" ++ after) rule event =
      before ++ value ++ scanned rule event after

theorem not_replacedEverywhere : ¬ReplacedEverywhere := by
  intro replaced
  have replaced := replaced disguised (noted "full") "\x7b" "note" "" "full" (by decide) (by decide)
    (by decide) (by decide)
  revert replaced
  decide +kernel

end Template

end Alerting
