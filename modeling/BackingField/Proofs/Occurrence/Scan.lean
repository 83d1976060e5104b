import BackingField.Occurrence
import BackingField.Proofs.Declaration.Reading
import BackingField.Proofs.Text.LineStarts

/-!
# The search finds the leftmost occurrences

Which occurrences a text has is said without a search: an occurrence stands in a text when it begins
at a line start and the characters between its two offsets spell its declaration (`StandsIn`).
`LeftmostScan` says what it means to go through them from left to right without overlap.  The search
`Occurrence.find` returns the one list that does so (`find_eq_iff_leftmostScan`).
-/

namespace BackingField
namespace Text

/-- Only the empty text has no bytes. -/
theorem size_eq_zero_iff {t : Text} : size t = 0 ↔ t = [] := by
  cases t with
  | nil => simp
  | cons c t =>
    have hpos := c.utf8Size_pos
    simp only [size_cons, List.cons_ne_nil, iff_false]
    omega

/-- Of two beginnings of a text the shorter one is a beginning of the longer one. -/
theorem exists_append_of_size_le {s t s' t' : Text} (h : s ++ t = s' ++ t')
    (hsize : size s ≤ size s') : ∃ m, s' = s ++ m ∧ t = m ++ t' := by
  rcases List.append_eq_append_iff.1 h with ⟨m, hs, ht⟩ | ⟨m, hs, ht⟩
  · exact ⟨m, hs, ht⟩
  · have hm : size m = 0 := by
      rw [hs, size_append] at hsize
      omega
    obtain rfl := size_eq_zero_iff.1 hm
    exact ⟨[], by simpa using hs.symm, by simpa using ht.symm⟩

/-- Two beginnings of a text with the same number of bytes are the same. -/
theorem append_inj_of_size_eq {s t s' t' : Text} (h : s ++ t = s' ++ t')
    (hsize : size s = size s') : s = s' ∧ t = t' := by
  have hcut := cut?_append s t
  rw [h, hsize, cut?_append] at hcut
  simpa [eq_comm] using hcut

end Text

namespace Occurrence

/-- What follows the text stands at a line start. -/
def LineStart (before : Text) : Prop :=
  before = [] ∨ Text.EndsLine before

/-- The occurrence stands in the text: at a line start, and with its characters between its two
offsets. -/
def StandsIn (o : Occurrence) (t : Text) : Prop :=
  ∃ before after, t = before ++ (o.text ++ after) ∧ o.start = Text.size before ∧
    o.stop = Text.size (before ++ o.text) ∧ LineStart before ∧ o.declaration.IsSpelledBy o.text

/-- A list of occurrences that goes on at an offset, each time with one that starts first among
those behind the end of the one before, until there is none. -/
inductive LeftmostScan (Occurs : Occurrence → Prop) : (offset : Nat) → List Occurrence → Prop
  | done {offset : Nat} (hnone : ∀ o, Occurs o → o.start < offset) : LeftmostScan Occurs offset []
  | next {offset : Nat} {o : Occurrence} {later : List Occurrence} (hoccurs : Occurs o)
      (hfrom : offset ≤ o.start) (hfirst : ∀ p, Occurs p → offset ≤ p.start → o.start ≤ p.start)
      (hlater : LeftmostScan Occurs o.stop later) : LeftmostScan Occurs offset (o :: later)

/-! ### One occurrence -/

theorem StandsIn.read? {o : Occurrence} {t : Text} (h : o.StandsIn t) :
    ∃ before after, t = before ++ (o.text ++ after) ∧ o.start = Text.size before ∧
      o.stop = Text.size (before ++ o.text) ∧ LineStart before ∧
      Declaration.read? (o.text ++ after) = some (o.declaration, after) := by
  obtain ⟨before, after, ht, hstart, hstop, hline, hspelled⟩ := h
  exact ⟨before, after, ht, hstart, hstop, hline, Declaration.read?_eq_some_iff.2 ⟨_, hspelled, rfl⟩⟩

theorem text_ne_nil_of_isSpelledBy {d : Declaration} {s : Text} (h : d.IsSpelledBy s) : s ≠ [] := by
  rintro rfl
  have hread : Declaration.read? [] = some (d, []) := Declaration.read?_eq_some_iff.2 ⟨_, h, rfl⟩
  exact absurd (Declaration.length_lt_of_read? hread) (by simp)

/-- At one place of a text there is at most one occurrence. -/
theorem StandsIn.eq_of_start_eq {o p : Occurrence} {t : Text} (ho : o.StandsIn t)
    (hp : p.StandsIn t) (hstart : o.start = p.start) : o = p := by
  obtain ⟨before, after, ht, hostart, hostop, -, horead⟩ := ho.read?
  obtain ⟨before', after', ht', hpstart, hpstop, -, hpread⟩ := hp.read?
  have hsize : Text.size before = Text.size before' := by omega
  obtain ⟨rfl, hrest⟩ := Text.append_inj_of_size_eq (ht ▸ ht') hsize
  rw [hrest, hpread] at horead
  obtain ⟨hdeclaration, rfl⟩ : p.declaration = o.declaration ∧ after' = after := by
    simpa using horead
  have htext : o.text = p.text := List.append_cancel_right hrest
  have hstop : o.stop = p.stop := by rw [hostop, hpstop, htext]
  exact Occurrence.ext hstart hstop htext hdeclaration.symm

/-- A spelling ends in a brace. -/
theorem exists_eq_append_of_isSpelledBy {d : Declaration} {s : Text} (h : d.IsSpelledBy s) :
    ∃ front, s = front ++ ['\x7d'] := by
  obtain ⟨l, -, -, rfl⟩ := h
  unfold Declaration.spelled Declaration.blockSpelled
  exact ⟨_, (List.append_assoc _ _ _).symm⟩

/-- Nothing starts a line right behind a spelling. -/
theorem not_lineStart_append_of_isSpelledBy {d : Declaration} {s : Text} (h : d.IsSpelledBy s)
    (before : Text) : ¬ LineStart (before ++ s) := by
  obtain ⟨front, rfl⟩ := exists_eq_append_of_isSpelledBy h
  rintro (hnil | ⟨line, hline⟩)
  · simp at hnil
  · have hlast := congrArg List.getLast? hline
    simp at hlast

theorem atFront_append (offset : Nat) (s rest : Text) (d : Declaration) :
    atFront offset (s ++ rest) d rest = ⟨offset, offset + Text.size s, s, d⟩ := by
  simp [atFront]

theorem lineStart_append_singleton (before : Text) (c : Char) :
    LineStart (before ++ [c]) ↔ c = '\n' := by
  constructor
  · rintro (hnil | ⟨line, hline⟩)
    · simp at hnil
    · have hlast := congrArg List.getLast? hline
      simpa using hlast
  · rintro rfl
    exact .inr ⟨before, rfl⟩

/-! ### The search -/

/-- A scan may begin earlier when nothing starts on the way. -/
theorem LeftmostScan.of_le {Occurs : Occurrence → Prop} {offset offset' : Nat}
    {found : List Occurrence} (h : LeftmostScan Occurs offset' found) (hle : offset ≤ offset')
    (hnone : ∀ o, Occurs o → offset ≤ o.start → offset' ≤ o.start) :
    LeftmostScan Occurs offset found := by
  cases h with
  | done hdone =>
    refine .done fun o ho => ?_
    rcases Nat.lt_or_ge o.start offset with hlt | hge
    · exact hlt
    · have hbehind := hnone o ho hge
      have hbefore := hdone o ho
      omega
  | next hoccurs hfrom hfirst hlater =>
    exact .next hoccurs (by omega) (fun p hp hpfrom => hfirst p hp (hnone p hp hpfrom)) hlater

/-- What is read on the way of the search is spelled there, and the place is a line start. -/
theorem exists_isSpelledBy_of_read? {lineStart : Bool} {t rest : Text} {d : Declaration}
    (h : (if lineStart then Declaration.read? t else none) = some (d, rest)) :
    lineStart = true ∧ ∃ s, d.IsSpelledBy s ∧ t = s ++ rest := by
  cases lineStart with
  | false => simp at h
  | true => exact ⟨rfl, Declaration.read?_eq_some_iff.1 (by simpa using h)⟩

/-- Behind the place of a text that is reached, the search makes a leftmost scan of the whole text. -/
theorem leftmostScan_findFrom {whole : Text} (offset : Nat) (lineStart : Bool) (t : Text) :
    ∀ before, whole = before ++ t → offset = Text.size before →
      (lineStart = true ↔ LineStart before) →
      LeftmostScan (fun o => o.StandsIn whole) offset (findFrom offset lineStart t) := by
  fun_induction findFrom offset lineStart t with
  | case1 offset lineStart t d rest hread o ih =>
    intro before hwhole hoffset hline
    obtain ⟨hstart, s, hspelled, rfl⟩ := exists_isSpelledBy_of_read? hread
    have ho : o = ⟨offset, offset + Text.size s, s, d⟩ := atFront_append offset s rest d
    have hstop : o.stop = Text.size (before ++ s) := by
      rw [ho, Text.size_append, ← hoffset]
    have hstands : o.StandsIn whole := by
      refine ⟨before, rest, ?_, ?_, ?_, hline.1 hstart, ?_⟩
      · rw [ho, hwhole]
      · rw [ho, ← hoffset]
      · rw [hstop, ho]
      · rw [ho]
        exact hspelled
    have hoffset' : o.start = offset := by rw [ho]
    refine .next hstands (by omega) (fun p _ hp => by omega) ?_
    refine ih (before ++ s) (by rw [hwhole, List.append_assoc]) hstop ?_
    simpa using not_lineStart_append_of_isSpelledBy hspelled before
  | case2 offset lineStart hread =>
    intro before hwhole hoffset hline
    refine .done fun o ho => ?_
    obtain ⟨front, after, ht, hstart, -, -, hspelled⟩ := ho
    -- Behind the whole text there is no room for an occurrence.
    have hpos : Text.size o.text ≠ 0 := fun hzero =>
      text_ne_nil_of_isSpelledBy hspelled (Text.size_eq_zero_iff.1 hzero)
    have hsize := congrArg Text.size (hwhole ▸ ht : before ++ [] = front ++ (o.text ++ after))
    simp only [Text.size_append, Text.size_nil] at hsize
    omega
  | case3 offset lineStart c t hread ih =>
    intro before hwhole hoffset hline
    have hscan := ih (before ++ [c]) (by simp [hwhole]) (by simp [hoffset])
      (by simp [lineStart_append_singleton])
    refine hscan.of_le (by omega) fun o ho hfrom => ?_
    obtain ⟨front, after, ht, hstart, -, hfrontLine, hoRead⟩ := ho.read?
    obtain ⟨m, hfront, hm⟩ := Text.exists_append_of_size_le (hwhole ▸ ht) (by omega)
    cases m with
    | nil =>
      -- An occurrence at this very place would have been read.
      have hthere : lineStart = true := hline.2 (by simpa [hfront] using hfrontLine)
      rw [List.nil_append] at hm
      rw [hthere, hm] at hread
      simp [hoRead] at hread
    | cons d m =>
      obtain ⟨rfl, -⟩ : c = d ∧ t = m ++ (o.text ++ after) := by simpa using hm
      rw [hstart, hfront, Text.size_append, Text.size_cons, hoffset]
      omega

/-- There is only one leftmost scan, because no two occurrences start at one place. -/
theorem LeftmostScan.unique {whole : Text} {offset : Nat} {found found' : List Occurrence}
    (h : LeftmostScan (fun o => o.StandsIn whole) offset found)
    (h' : LeftmostScan (fun o => o.StandsIn whole) offset found') : found = found' := by
  induction h generalizing found' with
  | done hnone =>
    cases h' with
    | done => rfl
    | next hoccurs hfrom _ _ =>
      have hbefore := hnone _ hoccurs
      omega
  | next hoccurs hfrom hfirst hlater ih =>
    cases h' with
    | done hnone =>
      have hbefore := hnone _ hoccurs
      omega
    | next hoccurs' hfrom' hfirst' hlater' =>
      have hle := hfirst _ hoccurs' hfrom'
      have hge := hfirst' _ hoccurs hfrom
      obtain rfl := hoccurs.eq_of_start_eq hoccurs' (by omega)
      rw [ih hlater']

theorem StandsIn.start_lt_stop {o : Occurrence} {t : Text} (h : o.StandsIn t) : o.start < o.stop := by
  obtain ⟨before, after, -, hstart, hstop, -, hspelled⟩ := h
  have hsize : Text.size o.text ≠ 0 := fun hzero =>
    text_ne_nil_of_isSpelledBy hspelled (Text.size_eq_zero_iff.1 hzero)
  rw [Text.size_append] at hstop
  omega

theorem LeftmostScan.occurs {Occurs : Occurrence → Prop} {offset : Nat} {found : List Occurrence}
    (h : LeftmostScan Occurs offset found) : ∀ o ∈ found, Occurs o := by
  induction h with
  | done hnone => simp
  | next hoccurs hfrom hfirst hlater ih =>
    intro p hp
    rcases List.mem_cons.1 hp with rfl | hp
    · exact hoccurs
    · exact ih p hp

/-- What a scan finds does not overlap and lies behind the place where it begins. -/
theorem LeftmostScan.ordered {whole : Text} {offset : Nat} {found : List Occurrence}
    (h : LeftmostScan (fun o => o.StandsIn whole) offset found) :
    (∀ o ∈ found, offset ≤ o.start) ∧ found.Pairwise fun o p => o.stop ≤ p.start := by
  induction h with
  | done hnone => simp
  | @next offset o later hoccurs hfrom hfirst hlater ih =>
    obtain ⟨hbehind, hpairwise⟩ := ih
    have hlt := hoccurs.start_lt_stop
    constructor
    · intro p hp
      rcases List.mem_cons.1 hp with rfl | hp
      · exact hfrom
      · have hle := hbehind p hp
        omega
    · exact List.pairwise_cons.2 ⟨hbehind, hpairwise⟩

/-- The search goes through the occurrences of a text from left to right. -/
theorem leftmostScan_find (t : Text) : LeftmostScan (fun o => o.StandsIn t) 0 (find t) :=
  leftmostScan_findFrom 0 true t [] rfl rfl (by simp [LineStart])

/-- What stands in a text stands in every text that begins with it. -/
theorem StandsIn.append {o : Occurrence} {s : Text} (h : o.StandsIn s) (t : Text) :
    o.StandsIn (s ++ t) := by
  obtain ⟨before, after, rfl, hstart, hstop, hline, hspelled⟩ := h
  exact ⟨before, after ++ t, by simp only [List.append_assoc], hstart, hstop, hline, hspelled⟩

/-- Where nothing is found, nothing is found in a beginning either. -/
theorem find_eq_nil_of_isPrefix {s t : Text} (h : s <+: t) (ht : find t = []) : find s = [] := by
  obtain ⟨rest, rfl⟩ := h
  have hscan := leftmostScan_find (s ++ rest)
  rw [ht] at hscan
  cases hscan with
  | done hnone =>
    refine List.eq_nil_iff_forall_not_mem.2 fun o ho => ?_
    have hbefore := hnone o (((leftmostScan_find s).occurs o ho).append rest)
    omega

/-- The search returns the leftmost scan of the occurrences of a text, and there is only one. -/
theorem find_eq_iff_leftmostScan (t : Text) (found : List Occurrence) :
    find t = found ↔ LeftmostScan (fun o => o.StandsIn t) 0 found := by
  constructor
  · rintro rfl
    exact leftmostScan_find t
  · intro h
    exact (leftmostScan_find t).unique h

end Occurrence
end BackingField
