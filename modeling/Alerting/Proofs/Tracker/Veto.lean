import Alerting.Proofs.Tracker.Window

/-!
# Readings that veto a window

Readings may arrive in any order of their times. One of them stays as long as fewer readings than
there is room for arrive after it and none of those leaves it too old: nothing before it in the
buffer can keep it from leaving, and nothing can make it leave before its turn. While it stays, no
window that it lies in is sustained unless the comparison holds of it.
-/

namespace Alerting

/-! ## A final stretch of a list -/

private theorem suffix_dropWhile {A : Type} {dropped : A → Bool} {value : A} {rest list : List A}
    (suffix : value :: rest <:+ list) (stays : dropped value = false) :
    value :: rest <:+ list.dropWhile dropped := by
  obtain ⟨front, rfl⟩ := suffix
  rw [List.dropWhile_append]
  split
  · exact ⟨[], (List.dropWhile_cons_of_neg (by simp [stays])).symm⟩
  · exact List.suffix_append ..

private theorem suffix_drop_of_fits {A : Type} {kept list : List A} {room : Nat}
    (suffix : kept <:+ list) (fits : kept.length ≤ room) :
    kept <:+ list.drop (list.length - room) := by
  apply List.suffix_of_suffix_length_le suffix (List.drop_suffix ..)
  have := suffix.length_le
  rw [List.length_drop]
  omega

/-! ## A reading and those after it -/

namespace TrackerSettings

variable {settings : TrackerSettings}

theorem retains_of_within {latest : Instant} {sample : Sample}
    (within : ∀ limit, sample.timestamp.add? settings.maxSampleAge = some limit → latest ≤ limit)
    (apart : latest.isLeap →
      latest.nanos ≤ sample.timestamp.nanos + settings.maxSampleAge.nanos) :
    settings.retains latest sample := by
  rw [retains_iff]
  intro cutoff hcutoff
  exact Instant.sub?_seconds_le (Int.natCast_nonneg _) within apart hcutoff

theorem retains_self (sample : Sample) : settings.retains sample.timestamp sample := by
  rw [retains_iff]
  intro cutoff hcutoff
  exact Instant.sub?_seconds_le_self (Int.natCast_nonneg _) hcutoff

theorem suffix_remember {held rest : List Sample} {sample latest : Sample}
    (suffix : sample :: rest <:+ held ++ [latest])
    (retained : settings.retains latest.timestamp sample)
    (room : rest.length < settings.maxSamples.toNat) :
    sample :: rest <:+ settings.remember held latest := by
  apply suffix_drop_of_fits
  · apply suffix_dropWhile suffix
    simp [retained]
  · exact room

theorem exists_remember_eq (room : settings.maxSamples ≠ 0) (held : List Sample)
    (sample : Sample) : ∃ others, settings.remember held sample = others ++ [sample] := by
  have room : 0 < settings.maxSamples.toNat := by
    rw [Nat.pos_iff_ne_zero]
    exact fun none => room (UInt64.toNat_inj.mp none)
  obtain ⟨others, same⟩ := suffix_remember (List.suffix_append held [sample])
    (settings.retains_self sample) room
  exact ⟨others, same.symm⟩

theorem suffix_held {samples later : List Sample} {sample : Sample}
    (retained : ∀ latest ∈ later, settings.retains latest.timestamp sample)
    (room : later.length < settings.maxSamples.toNat) :
    sample :: later <:+ settings.held (samples ++ sample :: later) := by
  induction later using List.reverseRec with
  | nil =>
      rw [held_append]
      exact suffix_remember (List.suffix_append ..) (retains_self sample) room
  | append_singleton later latest ih =>
      rw [List.length_append, List.length_singleton] at room
      have ih := ih (fun other mem => retained other (List.mem_append_left _ mem)) (by omega)
      rw [← List.cons_append, ← List.append_assoc, held_append]
      apply suffix_remember
      · exact List.suffix_append_self_iff.mpr ih
      · exact retained latest (by simp)
      · simpa using room

end TrackerSettings

/-! ## Windows with a reading that breaks them -/

namespace Tracker

theorem readingsOf_split (metric : String) (before after : List (String × Sample))
    (sample : Sample) :
    readingsOf metric (before ++ (metric, sample) :: after) =
      readingsOf metric before ++ sample :: readingsOf metric after := by
  simp [readingsOf]

/-- In whatever order readings arrive, one of which a comparison does not hold breaks every window
that it lies in, as long as fewer readings of its metric than there is room for arrive after it and
none of them more than the greatest age later, with a leap second counted on into the next. -/
theorem isSustained_eq_false_of_breach {settings : TrackerSettings}
    {before after : List (String × Sample)} {metric : String} {sample : Sample}
    {operator : Operator} {threshold : String} {window : Span} {now : Instant}
    (few : (readingsOf metric after).length < settings.maxSamples.toNat)
    (young : ∀ later ∈ readingsOf metric after, ∀ limit,
      sample.timestamp.add? settings.maxSampleAge = some limit → later.timestamp ≤ limit)
    (apart : ∀ later ∈ readingsOf metric after, later.timestamp.isLeap →
      later.timestamp.nanos ≤ sample.timestamp.nanos + settings.maxSampleAge.nanos)
    (breach : ∀ number, Number.parse? threshold = some number →
      operator.compare sample.value number = false)
    (begun : ∀ first, now.sub? window = some first → first ≤ sample.timestamp)
    (past : sample.timestamp ≤ now) :
    ((start settings).recordAll (before ++ (metric, sample) :: after)).isSustained metric operator
      threshold window now = false := by
  rw [Bool.eq_false_iff]
  intro sustained
  rw [isSustained_recordAll, readingsOf_split, TrackerSettings.judges,
    Option.any_eq_true] at sustained
  obtain ⟨number, hnumber, sustained⟩ := sustained
  obtain ⟨first, hfirst, _, holds⟩ := TrackerSettings.sustained_iff.mp sustained
  have retained : ∀ later ∈ readingsOf metric after,
      settings.retains later.timestamp sample := fun later mem =>
    TrackerSettings.retains_of_within (young later mem) (apart later mem)
  have held : sample ∈
      settings.held (readingsOf metric before ++ sample :: readingsOf metric after) :=
    (TrackerSettings.suffix_held retained few).mem List.mem_cons_self
  have kept := holds sample held (begun first hfirst) past
  rw [breach number hnumber] at kept
  contradiction

def stray : Sample := ⟨.nan, .clamp 4000000000⟩

theorem isSustained_eq_false_of_stray :
    ((start { maxSamples := 2, maxSampleAgeSeconds := 60 }).recordAll
        ([("cpu", ⟨.ofInt 95, .clamp 10000000000⟩)] ++ ("cpu", stray) ::
          [("disk", ⟨.ofInt 7, .clamp 500000000000⟩),
           ("cpu", ⟨.ofInt 95, .clamp 20000000000⟩)])).isSustained
      "cpu" .greaterThan "90" (.seconds 30) (.clamp 20000000000) = false := by
  apply isSustained_eq_false_of_breach
  · decide
  · change ∀ later ∈ _, ∀ limit ∈ Instant.add? _ _, _
    decide
  · decide
  · change ∀ number ∈ Number.parse? _, _
    decide
  · change ∀ first ∈ Instant.sub? _ _, _
    decide
  · decide

/-- A reading in a leap second drops one that it comes less than the greatest age after. -/
theorem not_forall_isSustained_eq_false_of_breach :
    ¬∀ (settings : TrackerSettings) (before after : List (String × Sample)) (metric : String)
      (sample : Sample) (operator : Operator) (threshold : String) (window : Span) (now : Instant),
      settings.maxSamples ≠ 0 →
      (readingsOf metric after).length < settings.maxSamples.toNat →
      (∀ later ∈ readingsOf metric after, ∀ limit,
        sample.timestamp.add? settings.maxSampleAge = some limit → later.timestamp ≤ limit) →
      (∀ number, Number.parse? threshold = some number →
        operator.compare sample.value number = false) →
      (∀ first, now.sub? window = some first → first ≤ sample.timestamp) →
      sample.timestamp ≤ now →
      ((start settings).recordAll (before ++ (metric, sample) :: after)).isSustained metric
        operator threshold window now = false := by
  intro vetoes
  have vetoed := vetoes {} [] leapBurst.tail "cpu" ⟨.ofInt 50, .clamp 1483227000200000000⟩
    .greaterThan "90" (.seconds 1800) (.clamp 1483228800000000000) (by decide) (by decide)
    (by change ∀ later ∈ _, ∀ limit ∈ Instant.add? _ _, _; decide)
    (by change ∀ number ∈ Number.parse? _, _; decide)
    (by change ∀ first ∈ Instant.sub? _ _, _; decide) (by decide)
  rw [isSustained_recordAll] at vetoed
  revert vetoed
  decide +kernel

end Tracker

end Alerting
