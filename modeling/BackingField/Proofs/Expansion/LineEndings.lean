import BackingField.Proofs.Declaration.LineEndings
import BackingField.Proofs.Expansion.Stepwise

/-!
# Expanding a text with other line ends

The occurrences of a text and of the same text with a carriage return in front of every line feed
correspond to each other.  Where the text had no carriage return in front of a line feed, all blocks
change from line feeds to both characters, so expanding the text and changing its line ends can be
done in either order (`expand_withCarriageReturns`).
-/

namespace BackingField

open Text

namespace LineEnding

theorem ofText_cons {c : Char} {t : Text} (h : ¬ "\r\n".toList <+: c :: t) :
    ofText (c :: t) = ofText t := by
  rw [ofText]
  rintro rest rfl
  intro ht
  exact h ⟨rest, by rw [ht]; rfl⟩

theorem ofText_eq_lf {t : Text} (h : ¬ "\r\n".toList <:+: t) : ofText t = lf := by
  induction t with
  | nil => rfl
  | cons c t ih =>
    rw [ofText_cons fun hfront => h hfront.isInfix]
    exact ih fun hlater => h (hlater.trans (List.suffix_cons c t).isInfix)

theorem ofText_withCarriageReturns {t : Text} (h : '\n' ∈ t) :
    ofText (withCarriageReturns t) = crlf := by
  induction t with
  | nil => simp at h
  | cons c t ih =>
    by_cases hc : c = '\n'
    · subst hc
      rfl
    · have hlater : '\n' ∈ t := (List.mem_cons.1 h).resolve_left (Ne.symm hc)
      rw [withCarriageReturns_cons hc]
      by_cases hfront : "\r\n".toList <+: c :: withCarriageReturns t
      · obtain ⟨rest, hrest⟩ := hfront
        rw [← hrest]
        rfl
      · rw [ofText_cons hfront, ih hlater]

end LineEnding

namespace Declaration

theorem feed_mem_of_isSpelledBy {d : Declaration} {s : Text} (h : d.IsSpelledBy s) : '\n' ∈ s := by
  obtain ⟨l, -, -, rfl⟩ := h
  unfold spelled blockSpelled
  simp

theorem IsSpelledBy.withCarriageReturns {d : Declaration} {s : Text} (h : d.IsSpelledBy s) :
    d.withCarriageReturns.IsSpelledBy (Text.withCarriageReturns s) := by
  have hread : read? s = some (d, []) := read?_eq_some_iff.2 ⟨s, h, (List.append_nil s).symm⟩
  have hread' := read?_withCarriageReturns s
  rw [hread] at hread'
  obtain ⟨s', hspelled, hs'⟩ := read?_eq_some_iff.1 hread'
  rw [hs', withCarriageReturns_nil, List.append_nil]
  exact hspelled

end Declaration

/-- The replacement of a text with carriage returns is the replacement with carriage returns. -/
theorem Replaces.withCarriageReturns {lineStart : Bool} {source result : Text}
    (h : Replaces lineStart source result) (hsource : ¬ "\r\n".toList <:+: source) :
    Replaces lineStart (Text.withCarriageReturns source) (Text.withCarriageReturns result) := by
  induction h with
  | nil lineStart => exact .nil lineStart
  | @keep lineStart c source result hnone hrest ih =>
    have ih' := ih fun hlater => hsource (hlater.trans (List.suffix_cons c source).isInfix)
    have hnone' : lineStart = true →
        Declaration.read? (Text.withCarriageReturns (c :: source)) = none := by
      intro hstart
      rw [Declaration.read?_withCarriageReturns, hnone hstart]
      rfl
    by_cases hc : c = '\n'
    · subst hc
      exact .keep hnone' (.keep (by simp) ih')
    · rw [withCarriageReturns_cons hc] at hnone' ⊢
      rw [withCarriageReturns_cons hc]
      exact .keep hnone' ih'
  | @expand d s source result hspelled hrest ih =>
    have ih' := ih fun hlater => hsource (hlater.trans (List.suffix_append s source).isInfix)
    have hlf : LineEnding.ofText s = .lf :=
      LineEnding.ofText_eq_lf fun hmem => hsource (hmem.trans (List.prefix_append s source).isInfix)
    have hcrlf := LineEnding.ofText_withCarriageReturns (Declaration.feed_mem_of_isSpelledBy hspelled)
    have hexpand := Replaces.expand hspelled.withCarriageReturns ih'
    rw [hcrlf, Declaration.expanded_withCarriageReturns hspelled.wellFormed] at hexpand
    rw [withCarriageReturns_append, withCarriageReturns_append, hlf]
    exact hexpand

/-- Carriage returns change the places of occurrences but not their number. -/
theorem Occurrence.length_findFrom_withCarriageReturns (offset offset' : Nat) (lineStart : Bool)
    (t : Text) : (findFrom offset' lineStart (withCarriageReturns t)).length =
      (findFrom offset lineStart t).length := by
  fun_induction findFrom offset lineStart t generalizing offset' with
  | case1 offset lineStart t d rest hread o ih =>
    obtain ⟨rfl, s, hspelled, rfl⟩ := exists_isSpelledBy_of_read? hread
    have hread' := Declaration.read?_withCarriageReturns (s ++ rest)
    rw [Declaration.read?_eq_some_iff.2 ⟨s, hspelled, rfl⟩] at hread'
    rw [findFrom_true_of_some hread', List.length_cons, List.length_cons, ih]
  | case2 offset lineStart hread => rw [withCarriageReturns_nil, findFrom_nil]
  | case3 offset lineStart c t hread ih =>
    have hnone : lineStart = true →
        Declaration.read? (Text.withCarriageReturns (c :: t)) = none := by
      intro hstart
      rw [Declaration.read?_withCarriageReturns]
      simpa [hstart] using hread
    by_cases hc : c = '\n'
    · subst hc
      rw [withCarriageReturns_feed] at hnone ⊢
      rw [findFrom_cons offset' hnone, findFrom_cons _ (by simp), ih]
    · rw [withCarriageReturns_cons hc] at hnone ⊢
      rw [findFrom_cons offset' hnone, ih]

/-- Expanding commutes with putting a carriage return in front of every line feed, for a text in
which no line feed has one: as many properties are found, and the results correspond. -/
theorem expand_withCarriageReturns {source : Text} (hsource : ¬ "\r\n".toList <:+: source) :
    ∃ e, expand source = .ok e ∧
      expand (withCarriageReturns source) = .ok ⟨withCarriageReturns e.text, e.properties⟩ := by
  obtain ⟨result, hresult, hexpand⟩ := expand_eq_ok source
  obtain ⟨result', hresult', hexpand'⟩ := expand_eq_ok (withCarriageReturns source)
  refine ⟨_, hexpand, ?_⟩
  have hcount := Occurrence.length_findFrom_withCarriageReturns 0 0 true source
  rw [hexpand', hresult'.unique (hresult.withCarriageReturns hsource), Occurrence.find, hcount]
  rfl

-- The type goes over two lines, and one blank is a carriage return without a line feed.
theorem expand_withCarriageReturns_twoLineType :
    let source := "public A<\nint> B\r \n\x7b\nget;\nset => m(ref field, value);\n\x7d".toList
    ¬ "\r\n".toList <:+: source ∧ ∃ e, expand source = .ok e ∧
      expand (withCarriageReturns source) = .ok ⟨withCarriageReturns e.text, e.properties⟩ :=
  ⟨by decide +kernel, expand_withCarriageReturns (by decide +kernel)⟩

end BackingField
