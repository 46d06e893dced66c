import Aprovan.Library.Like

/-!
# Names whose wildcards alone are escaped

A statement that puts the escape letter before the wildcards of a name, and not
before the escape letter itself, asks for another name than it was
given.  `readName` is what it asks for.
-/

namespace Aprovan.Library

/-- What a name is read as, and whether an escape letter is left over at its
end. -/
def readName (escape : Char) : Text → List LikeItem × Bool
  | [] => ([], false)
  | [last] => if last = escape then ([], true) else ([.letter last], false)
  | first :: second :: rest =>
    if first = escape then
      (readName escape rest).map
        (fun items =>
          if second = '%' then .letter escape :: .anyText :: items
          else if second = '_' then .letter escape :: .anyLetter :: items
          else .letter second :: items)
        id
    else (readName escape (second :: rest)).map (.letter first :: ·) id

theorem parseLike_percent {escape : Char} {rest : Text} (notPercent : escape ≠ '%') :
    parseLike escape ('%' :: rest) = (parseLike escape rest).map (.anyText :: ·) := by
  cases rest <;> simp [parseLike, notPercent.symm]

theorem parseLike_underscore {escape : Char} {rest : Text} (notUnderscore : escape ≠ '_') :
    parseLike escape ('_' :: rest) = (parseLike escape rest).map (.anyLetter :: ·) := by
  cases rest <;> simp [parseLike, notUnderscore.symm]

/-- The pattern of a name, and what follows it, in terms of the reading. -/
theorem parseLike_escapeWildcards {escape : Char} (notPercent : escape ≠ '%')
    (notUnderscore : escape ≠ '_') (name following : Text) :
    parseLike escape (escapeLetters escape ['%', '_'] name ++ following) =
      (parseLike escape (if (readName escape name).2 then escape :: following
          else following)).map ((readName escape name).1 ++ ·) := by
  induction name using readName.induct escape with
  | case1 => simp [readName, escapeLetters]
  | case2 =>
    have plain : escape ∉ ['%', '_'] := by simp [notPercent, notUnderscore]
    simp [readName, escapeLetters, plain]
  | case3 last other =>
    by_cases special : last ∈ ['%', '_']
    · simp [readName, escapeLetters, special, other, parseLike]
    · have wildcard : last ≠ '%' ∧ last ≠ '_' := by
        simpa using special
      simp only [readName, if_neg other, escapeLetters, if_neg special,
        List.cons_append, List.nil_append]
      rw [parseLike_plain other wildcard.1 wildcard.2]
      rfl
  | case4 second rest ih =>
    have plain : escape ∉ ['%', '_'] := by simp [notPercent, notUnderscore]
    rw [readName, if_pos rfl]
    simp only [escapeLetters, if_neg plain, Prod.map_fst, Prod.map_snd, id]
    by_cases percent : second = '%'
    · subst percent
      have isWildcard : '%' ∈ ['%', '_'] := by decide
      simp [isWildcard, parseLike, parseLike_percent notPercent, ih, Function.comp_def]
    · by_cases underscore : second = '_'
      · subst underscore
        have isWildcard : '_' ∈ ['%', '_'] := by decide
        simp [isWildcard, parseLike, parseLike_underscore notUnderscore, ih, Function.comp_def]
      · have ordinary : second ∉ ['%', '_'] := by
          simp [percent, underscore]
        simp [ordinary, percent, underscore, parseLike, ih, Function.comp_def]
  | case5 first second rest other ih =>
    rw [readName, if_neg other]
    simp only [Prod.map_fst, Prod.map_snd, id]
    by_cases special : first ∈ ['%', '_']
    · rw [escapeLetters, if_pos special]
      simp [parseLike, ih, Function.comp_def]
    · have wildcard : first ≠ '%' ∧ first ≠ '_' := by
        simpa using special
      rw [escapeLetters, if_neg special, List.cons_append,
        parseLike_plain other wildcard.1 wildcard.2, ih]
      simp [Function.comp_def]

section

variable {same : Char → Char → Bool} {escape separator : Char}
  {name text : Text}

/-- The pattern of everything below a name.  The separator takes the place
of an escaped one, so that a left-over escape letter changes nothing. -/
theorem like_below_read_iff (notPercent : escape ≠ '%') (notUnderscore : escape ≠ '_')
    (plain : separator ∉ [escape, '%', '_']) :
    like same escape text (escapeLetters escape ['%', '_'] name ++ [separator, '%']) = true ↔
      ∃ above letter rest, text = above ++ letter :: rest ∧
        matchesItems same (readName escape name).1 above = true ∧ same separator letter = true := by
  have notSeparator : separator ≠ escape ∧ separator ≠ '%' ∧ separator ≠ '_' := by simpa using plain
  have ending : parseLike escape (if (readName escape name).2 then [escape, separator, '%']
        else [separator, '%']) = some [.letter separator, .anyText] := by
    by_cases leftOver : (readName escape name).2 = true
    · simp [leftOver, parseLike, notPercent.symm]
    · simp [leftOver, parseLike, notSeparator.1, notSeparator.2.1,
        notSeparator.2.2, notPercent.symm]
  rw [like, parseLike_escapeWildcards notPercent notUnderscore, ending]
  exact matchesItems_below

/-- The pattern of everything that starts with a name.  An escape letter
left over makes the final wildcard a letter. -/
theorem like_start_read_iff (notPercent : escape ≠ '%') (notUnderscore : escape ≠ '_') :
    like same escape text (escapeLetters escape ['%', '_'] name ++ ['%']) = true ↔
      ∃ begun rest, text = begun ++ rest ∧ matchesItems same (readName escape name).1 begun = true ∧
        ((readName escape name).2 = true → ∃ letter, rest = [letter] ∧ same '%' letter = true) := by
  rw [like, parseLike_escapeWildcards notPercent notUnderscore]
  by_cases leftOver : (readName escape name).2 = true
  · have ending : parseLike escape [escape, '%'] = some [.letter '%'] := by
      simp [parseLike]
    simp only [leftOver, if_true, ending, Option.map_some, matchesItems_append_iff, forall_const]
    refine exists_congr fun begun => exists_congr fun rest => ?_
    refine and_congr_right fun _ => and_congr_right fun _ => ?_
    cases rest with
    | nil => simp [matchesItems]
    | cons letter others => cases others <;> simp [matchesItems]
  · have ending : parseLike escape ['%'] = some [.anyText] := by
      simp [parseLike, notPercent.symm]
    simp [leftOver, ending, matchesItems_append_iff, matchesItems_anyText]

end

end Aprovan.Library
