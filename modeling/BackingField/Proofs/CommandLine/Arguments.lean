import BackingField.CommandLine.Arguments
import Mathlib.Data.List.Nodup

/-!
# What arguments ask for

An argument list begins with flags for a run, each given at most once.  The rest settles what is
asked for: it is empty or two dashes, and then the flags are the options of a run, or it begins with
an argument for help or for the version, and then nothing behind that argument counts (`Asks`).
Reading from left to right accepts these lists and no others (`request_eq_ok_iff`).
-/

namespace BackingField
namespace CommandLine

variable {given flags : List Flag} {arguments rest : List Text} {r : Request}

/-- Flags for a run that may all be given. -/
structure Given (flags : List Flag) : Prop where
  once : flags.Nodup
  forRun : ∀ f ∈ flags, f = .dryRun ∨ f = .diff

/-- Options of a run for which flags are given. -/
def optionsOf (flags : List Flag) : Options :=
  ⟨if .dryRun ∈ flags then .dryRun else .apply, .diff ∈ flags⟩

/-- Arguments behind given flags that settle what is asked for. -/
inductive Settles (given : List Flag) : List Text → Request → Prop
  | ended : Settles given [] (.run (optionsOf given))
  | endOfFlags : Settles given ["--".toList] (.run (optionsOf given))
  | shortHelp (letters : Text) (rest : List Text) :
      Settles given (('-' :: 'h' :: letters) :: rest) (.help false)
  | longHelp (rest : List Text) : Settles given (Flag.help.shown :: rest) (.help true)
  | shortVersion (letters : Text) (rest : List Text) :
      Settles given (('-' :: 'V' :: letters) :: rest) .version
  | longVersion (rest : List Text) : Settles given (Flag.version.shown :: rest) .version

/-- What an argument list asks for. -/
def Asks (arguments : List Text) (r : Request) : Prop :=
  ∃ flags rest, Given flags ∧ arguments = flags.map Flag.shown ++ rest ∧ Settles flags rest r

/-! ### Shapes -/

theorem eq_of_shapeOf_eq_endOfFlags {argument : Text} (h : shapeOf argument = .endOfFlags) :
    argument = "--".toList := by
  unfold shapeOf at h
  split at h
  · rfl
  · split at h <;> simp at h
  · simp at h
  · simp at h

theorem eq_of_shapeOf_eq_short {argument others : Text} {c : Char}
    (h : shapeOf argument = .short c others) : argument = '-' :: c :: others := by
  unfold shapeOf at h
  split at h
  · simp at h
  · split at h <;> simp at h
  · obtain ⟨rfl, rfl⟩ : _ = c ∧ _ = others := by simpa using h
    rfl
  · simp at h

theorem eq_of_shapeOf_eq_long {argument name : Text} (h : shapeOf argument = .long name none) :
    argument = "--".toList ++ name := by
  unfold shapeOf at h
  split at h
  · simp at h
  · split at h
    · simp at h
    · obtain rfl : _ = name := by simpa using h
      rfl
  · simp at h
  · simp at h

/-- A flag is found under its own name only. -/
theorem Flag.name_of_ofName? {name : Text} {f : Flag} (h : ofName? name = some f) :
    f.name = name := by
  simpa using List.find?_some h

theorem shapeOf_shown (f : Flag) : shapeOf f.shown = .long f.name none := by
  cases f <;> decide

theorem Flag.ofName?_name (f : Flag) : ofName? f.name = some f := by
  cases f <;> decide

/-! ### Flags for a run -/

/-- Read arguments behind given flags. -/
def readBehind (given : List Flag) (arguments : List Text) : Except ArgumentError Request :=
  readArguments (.dryRun ∈ given) (.diff ∈ given) arguments

theorem given_concat {f : Flag} (h : Given given) (hrun : f = .dryRun ∨ f = .diff)
    (hnew : f ∉ given) : Given (given ++ [f]) where
  once := List.nodup_append.2 ⟨h.once, List.nodup_singleton f, fun g hg g' hg' heq =>
    hnew (List.mem_singleton.1 hg' ▸ heq ▸ hg)⟩
  forRun g hg := by
    rcases List.mem_append.1 hg with hg | hg
    · exact h.forRun g hg
    · rwa [List.mem_singleton.1 hg]

/-- A flag for a run that has not been given yet is one more given flag. -/
theorem readBehind_flag {f : Flag} (h : Given (given ++ [f])) (rest : List Text) :
    readBehind given (f.shown :: rest) = readBehind (given ++ [f]) rest := by
  have hnew : f ∉ given := fun hmem =>
    (List.nodup_append.1 h.once).2.2 f hmem f (List.mem_singleton_self f) rfl
  rw [readBehind, readArguments.eq_def]
  simp only [shapeOf_shown, Flag.ofName?_name]
  rcases h.forRun f (by simp) with rfl | rfl
  · simp [readBehind, give, hnew, bind, Except.bind]
  · simp [readBehind, give, hnew, bind, Except.bind]

theorem readBehind_flags (h : Given (given ++ flags)) (rest : List Text) :
    readBehind given (flags.map Flag.shown ++ rest) = readBehind (given ++ flags) rest := by
  induction flags generalizing given with
  | nil => simp
  | cons f flags ih =>
    rw [List.append_cons] at h ⊢
    have hfirst : Given (given ++ [f]) :=
      ⟨(List.nodup_append.1 h.once).1, fun g hg => h.forRun g (List.mem_append_left flags hg)⟩
    rw [List.map_cons, List.cons_append, readBehind_flag hfirst, ih h]

theorem readBehind_of_settles (h : Settles given arguments r) :
    readBehind given arguments = .ok r := by
  rw [readBehind, readArguments.eq_def]
  cases h with
  | ended => simp [optionsOf]
  | endOfFlags => simp [optionsOf, shapeOf, readArguments]
  | shortHelp letters rest => simp [shapeOf]
  | longHelp rest => rfl
  | shortVersion letters rest => simp [shapeOf]
  | longVersion rest => rfl

theorem settles_of_short {argument others : Text} {c : Char}
    (hshape : shapeOf argument = .short c others)
    (h : readBehind given (argument :: rest) = .ok r) : Settles given (argument :: rest) r := by
  rw [readBehind, readArguments.eq_def] at h
  rw [eq_of_shapeOf_eq_short hshape]
  by_cases hhelp : c = 'h'
  · subst hhelp
    obtain rfl : .help false = r := by simpa [hshape] using h
    exact .shortHelp others rest
  by_cases hversion : c = 'V'
  · subst hversion
    obtain rfl : .version = r := by simpa [hshape] using h
    exact .shortVersion others rest
  simp [hshape] at h

/-- A flag settles what is asked for, or it is one for a run and has not been given before. -/
theorem settles_or_given (hgiven : Given given) {f : Flag}
    (h : readBehind given (f.shown :: rest) = .ok r) :
    Settles given (f.shown :: rest) r ∨
      Given (given ++ [f]) ∧ readBehind (given ++ [f]) rest = .ok r := by
  have hmore (hrun : f = .dryRun ∨ f = .diff) (hnew : f ∉ given) :
      Given (given ++ [f]) ∧ readBehind (given ++ [f]) rest = .ok r := by
    have hgiven' := given_concat hgiven hrun hnew
    exact ⟨hgiven', by rw [← readBehind_flag hgiven', h]⟩
  rw [readBehind, readArguments.eq_def] at h
  simp only [shapeOf_shown, Flag.ofName?_name] at h
  cases f with
  | help =>
    obtain rfl : .help true = r := Except.ok.inj h
    exact .inl (.longHelp rest)
  | version =>
    obtain rfl : .version = r := Except.ok.inj h
    exact .inl (.longVersion rest)
  | dryRun =>
    by_cases hnew : Flag.dryRun ∈ given
    · simp [give, hnew, bind, Except.bind] at h
    · exact .inr (hmore (.inl rfl) hnew)
  | diff =>
    by_cases hnew : Flag.diff ∈ given
    · simp [give, hnew, bind, Except.bind] at h
    · exact .inr (hmore (.inr rfl) hnew)

/-- The first argument settles what is asked for, or it is one more flag for a run. -/
theorem settles_or_flag (hgiven : Given given) (h : readBehind given arguments = .ok r) :
    Settles given arguments r ∨ ∃ f rest, arguments = f.shown :: rest ∧ Given (given ++ [f]) ∧
      readBehind (given ++ [f]) rest = .ok r := by
  have hread := h
  rw [readBehind, readArguments.eq_def] at hread
  cases arguments with
  | nil =>
    obtain rfl : .run (optionsOf given) = r := by simpa [optionsOf] using hread
    exact .inl .ended
  | cons argument rest =>
    cases hshape : shapeOf argument with
    | endOfFlags =>
      cases rest with
      | nil =>
        obtain rfl : .run (optionsOf given) = r := by
          simpa [hshape, optionsOf, readArguments] using hread
        rw [eq_of_shapeOf_eq_endOfFlags hshape]
        exact .inl .endOfFlags
      | cons extra rest => simp [hshape] at hread
    | positional => simp [hshape] at hread
    | short c others => exact .inl (settles_of_short hshape h)
    | long name value =>
      cases hname : Flag.ofName? name with
      | none => simp [hshape, hname] at hread
      | some f =>
        cases value with
        | some value => simp [hshape, hname] at hread
        | none =>
          obtain rfl : argument = f.shown := by
            rw [eq_of_shapeOf_eq_long hshape, Flag.shown, Flag.name_of_ofName? hname]
          rcases settles_or_given hgiven h with hsettles | ⟨hgiven', hrest⟩
          · exact .inl hsettles
          · exact .inr ⟨f, rest, rfl, hgiven', hrest⟩

/-! ### Argument lists -/

theorem exists_settles_of_readBehind (hgiven : Given given) (h : readBehind given arguments = .ok r) :
    ∃ flags rest, Given (given ++ flags) ∧ arguments = flags.map Flag.shown ++ rest ∧
      Settles (given ++ flags) rest r := by
  induction arguments generalizing given with
  | nil =>
    rcases settles_or_flag hgiven h with hsettles | ⟨f, rest, heq, -⟩
    · exact ⟨[], [], by simpa using hgiven, rfl, by simpa using hsettles⟩
    · simp at heq
  | cons argument arguments ih =>
    rcases settles_or_flag hgiven h with hsettles | ⟨f, rest, heq, hgiven', hrest⟩
    · exact ⟨[], argument :: arguments, by simpa using hgiven, rfl, by simpa using hsettles⟩
    · obtain ⟨rfl, rfl⟩ := List.cons.inj heq
      obtain ⟨flags, rest, hflags, hlist, hsettles⟩ := ih hgiven' hrest
      rw [← List.append_cons] at hflags hsettles
      exact ⟨f :: flags, rest, hflags, by rw [hlist]; rfl, hsettles⟩

/-- An argument list is accepted exactly if it asks for something, and that is what it is read as. -/
theorem request_eq_ok_iff : request arguments = .ok r ↔ Asks arguments r := by
  have hnone : Given [] := ⟨List.nodup_nil, by simp⟩
  constructor
  · intro h
    obtain ⟨flags, rest, hgiven, hlist, hsettles⟩ := exists_settles_of_readBehind hnone h
    exact ⟨flags, rest, hgiven, hlist, hsettles⟩
  · rintro ⟨flags, rest, hgiven, rfl, hsettles⟩
    rw [← List.nil_append flags] at hgiven
    have hread := readBehind_flags hgiven rest
    rw [List.nil_append, readBehind_of_settles hsettles] at hread
    exact hread

-- Behind two dashes a flag is none, and behind a request for help it does not count.
example :
    request ["--".toList, "--dry-run".toList] = .error (.unexpected "--dry-run".toList none) ∧
      request ["-hV".toList, "--dry".toList] = .ok (.help false) :=
  ⟨by cbv, by cbv⟩

/-- An argument list asks for one thing only. -/
theorem Asks.unique {r' : Request} (h : Asks arguments r) (h' : Asks arguments r') : r = r' := by
  have hread := request_eq_ok_iff.2 h
  rw [request_eq_ok_iff.2 h'] at hread
  exact (Except.ok.inj hread).symm

/-! ### Runs -/

theorem Settles.run_spec {options : Options} (h : Settles given rest (.run options)) :
    options = optionsOf given ∧ (rest = [] ∨ rest = ["--".toList]) := by
  generalize hr : Request.run options = r at h
  cases h with
  | ended => exact ⟨Request.run.inj hr, .inl rfl⟩
  | endOfFlags => exact ⟨Request.run.inj hr, .inr rfl⟩
  | shortHelp letters rest => simp at hr
  | longHelp rest => simp at hr
  | shortVersion letters rest => simp at hr
  | longVersion rest => simp at hr

/-- Nothing but `--diff` goes with a run that writes. -/
theorem Asks.mem_of_apply {showDiff : Bool} {argument : Text}
    (h : Asks arguments (.run ⟨.apply, showDiff⟩)) (hmem : argument ∈ arguments) :
    argument = "--diff".toList ∨ argument = "--".toList := by
  obtain ⟨flags, rest, hgiven, rfl, hsettles⟩ := h
  obtain ⟨hoptions, hrest⟩ := hsettles.run_spec
  have hdry : Flag.dryRun ∉ flags := by
    intro hdry
    simp [optionsOf, hdry] at hoptions
  rcases List.mem_append.1 hmem with hflag | hend
  · obtain ⟨f, hf, rfl⟩ := List.mem_map.1 hflag
    rcases hgiven.forRun f hf with rfl | rfl
    · exact absurd hf hdry
    · exact .inl rfl
  · rcases hrest with rfl | rfl
    · simp at hend
    · exact .inr (List.mem_singleton.1 hend)

end CommandLine
end BackingField
