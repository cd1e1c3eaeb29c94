import Mathlib.Data.List.TakeWhile
import Rzi.AtService

/-!
# The grammar of a command (`doc/at-command-compatibility.md`)

A command line is `AT+`, a name and one of four endings. `execute` in `src/at/at_parser.c` looks for the
first `=` or `?` behind `AT+` and compares what begins there; `parseCommand_iff` says that this accepts the
command lines and no others, with their names and requests.
-/

namespace Rzi.At
variable {line name suffix : List UInt8} {request : Request}

/-! ### Command lines -/

/-- What may follow the name of a command, and the request it makes. -/
inductive Ending : List UInt8 → Request → Prop
  | run : Ending [] ⟨.run, none⟩
  | help : Ending (ascii "?") ⟨.help, none⟩
  | read : Ending (ascii "=?") ⟨.read, none⟩
  | write {value : List UInt8} (hvalue : value ≠ []) (hmark : 0x3f ∉ value) :
      Ending (ascii "=" ++ value) ⟨.write, some value⟩

/-- A name holds neither `=` (`0x3d`) nor `?` (`0x3f`). -/
structure IsName (name : List UInt8) : Prop where
  ne_nil : name ≠ []
  eq_free : 0x3d ∉ name
  mark_free : 0x3f ∉ name

/-- A command line, with its name as it is written. -/
inductive CommandLine : List UInt8 → List UInt8 → Request → Prop
  | intro {head name ending : List UInt8} {request : Request}
      (hhead : head.map upper = ascii "AT+") (hname : IsName name) (hending : Ending ending request) :
      CommandLine (head ++ name ++ ending) name request

/-! ### Endings -/

theorem not_isSeparator_iff {b : UInt8} : (!isSeparator b) = true ↔ b ≠ 0x3d ∧ b ≠ 0x3f := by
  simp [isSeparator]

theorem IsName.not_separator (h : IsName name) : ∀ b ∈ name, (!isSeparator b) = true := by
  intro b hb
  refine not_isSeparator_iff.2 ⟨fun heq => ?_, fun heq => ?_⟩
  · exact h.eq_free (heq ▸ hb)
  · exact h.mark_free (heq ▸ hb)

/-- An ending starts with a separator, if with anything. -/
theorem Ending.takeWhile (h : Ending suffix request) : suffix.takeWhile (!isSeparator ·) = [] := by
  cases h with
  | run => rfl
  | help => rfl
  | read => rfl
  | write => rfl

theorem Ending.dropWhile (h : Ending suffix request) :
    suffix.dropWhile (!isSeparator ·) = suffix := by
  have hsplit := @List.takeWhile_append_dropWhile _ (!isSeparator ·) suffix
  rwa [h.takeWhile] at hsplit

theorem Ending.argument (h : Ending suffix request) :
    request.argument = none ↔ request.operation ≠ .write := by
  cases h with
  | run => simp
  | help => simp
  | read => simp
  | write => simp

/-! ### The parser against the grammar -/

theorem parseBody_append (hname : IsName name) (hending : Ending suffix request) :
    parseBody (name ++ suffix) = some (name, request) := by
  have htake : (name ++ suffix).takeWhile (!isSeparator ·) = name := by
    rw [List.takeWhile_append_of_pos hname.not_separator, hending.takeWhile, List.append_nil]
  have hdrop : (name ++ suffix).dropWhile (!isSeparator ·) = suffix := by
    rw [List.dropWhile_append_of_pos hname.not_separator, hending.dropWhile]
  rw [parseBody, htake, hdrop]
  cases hending with
  | run => rfl
  | help => rfl
  | read => rfl
  | @write value hvalue hmark =>
    have hne : ascii "=" ++ value ≠ [] := by simp [show ascii "=" = [0x3d] from rfl]
    have hhelp : ascii "=" ++ value ≠ ascii "?" := fun h => absurd (List.cons.inj h).1 (by decide)
    -- the value of a write is not the `?` of a read
    have hread : ascii "=" ++ value ≠ ascii "=?" := by
      intro h
      have hvalue : value = [0x3f] := (List.cons.inj h).2
      exact hmark (hvalue ▸ List.mem_singleton_self _)
    simp only [hne, hhelp, hread, if_false]
    exact if_pos ⟨rfl, hvalue, hmark⟩

theorem parseBody_sound {body : List UInt8} (h : parseBody body = some (name, request)) :
    ∃ suffix, body = name ++ suffix ∧ (∀ b ∈ name, (!isSeparator b) = true) ∧
      Ending suffix request := by
  have hname : name = body.takeWhile (!isSeparator ·) ∧
      Ending (body.dropWhile (!isSeparator ·)) request := by
    unfold parseBody at h
    simp only at h
    split_ifs at h with hrun hhelp hread hwrite
    · cases h
      exact ⟨rfl, hrun ▸ .run⟩
    · cases h
      exact ⟨rfl, hhelp ▸ .help⟩
    · cases h
      exact ⟨rfl, hread ▸ .read⟩
    · cases h
      obtain ⟨hhead, hvalue, hmark⟩ := hwrite
      refine ⟨rfl, ?_⟩
      have hending : Ending (ascii "=" ++ _) _ := .write hvalue hmark
      rwa [show ascii "=" = [0x3d] from rfl, List.singleton_append,
        List.cons_head?_tail hhead] at hending
  refine ⟨_, ?_, ?_, hname.2⟩
  · rw [hname.1, List.takeWhile_append_dropWhile]
  · intro b hb
    rw [hname.1] at hb
    exact List.mem_takeWhile_imp (p := (!isSeparator ·)) hb

/-- The comparison of the first three bytes. -/
theorem asciiCasecmpN_at (line : List UInt8) :
    asciiCasecmpN line (ascii "AT+") 3 = 0 ↔ (line.take 3).map upper = ascii "AT+" := by
  rw [asciiCasecmpN_eq_zero_iff (by decide) (by decide)]
  rfl

theorem CommandLine.parse (h : CommandLine line name request) :
    parseCommand line = some (name.map upper, request) := by
  cases h with
  | @intro head name ending request hhead hname hending =>
    have hthree : head.length = 3 := by
      rw [← List.length_map upper, hhead]
      rfl
    have hat : asciiCasecmpN (head ++ name ++ ending) (ascii "AT+") 3 = 0 := by
      rw [asciiCasecmpN_at, List.append_assoc, List.take_left' hthree]
      exact hhead
    have hbody : (head ++ name ++ ending).drop 3 = name ++ ending := by
      rw [List.append_assoc, List.drop_left' hthree]
    rw [parseCommand, if_neg (not_not.2 hat), hbody, parseBody_append hname hending]
    exact if_neg hname.ne_nil

theorem commandLine_of_parse {upperName : List UInt8}
    (h : parseCommand line = some (upperName, request)) :
    ∃ name, CommandLine line name request ∧ upperName = name.map upper := by
  unfold parseCommand at h
  split at h
  · cases h
  rename_i hat
  rw [not_not, asciiCasecmpN_at] at hat
  split at h
  · cases h
  rename_i name request' hbody
  split at h
  · cases h
  rename_i hne
  cases h
  obtain ⟨suffix, hsuffix, hplain, hending⟩ := parseBody_sound hbody
  have hname : IsName name :=
    ⟨hne, fun hb => absurd (hplain _ hb) (by decide), fun hb => absurd (hplain _ hb) (by decide)⟩
  have hline : line = line.take 3 ++ name ++ suffix := by
    rw [List.append_assoc, ← hsuffix, List.take_append_drop]
  refine ⟨name, ?_, rfl⟩
  rw [hline]
  exact .intro hat hname hending

theorem parseCommand_iff {upperName : List UInt8} :
    parseCommand line = some (upperName, request) ↔
      ∃ name, CommandLine line name request ∧ upperName = name.map upper := by
  constructor
  · exact commandLine_of_parse
  · rintro ⟨name, h, rfl⟩
    exact h.parse

theorem parseCommand_argument {upperName : List UInt8}
    (h : parseCommand line = some (upperName, request)) :
    request.argument = none ↔ request.operation ≠ .write := by
  obtain ⟨name, hcommand, -⟩ := commandLine_of_parse h
  cases hcommand with
  | intro _ _ hending => exact hending.argument

end Rzi.At
