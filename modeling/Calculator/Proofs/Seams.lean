import Calculator.Proofs.Segmentation

/-!
# Texts joined at blanks

A blank is part of no piece, so a text has at a blank the tokens of what
stands before it and then those of what stands after it (`Cuts.append`). The
slice of a token alone has that one token. So the slices of a text can be
joined with other blanks and stay what they are (`tokenize_at_blanks`).
-/

namespace Calculator

open Text

/-- The token in a text that is its own slice. -/
def Token.alone (x : Token) : Token := { x with offset := 0 }

namespace Cuts

variable {i : Nat} {p q : List Char} {ts us : List Token}

theorem shift (h : Cuts i p ts) (n : Nat) : Cuts (i + n) p (ts.map (·.shift n)) := by
  induction h with
  | done hgap => exact .done hgap
  | @token i gap rest x more ts hgap hoff hw hp hr _ ih =>
    have hoff' : (x.shift n).offset = i + n + bytes gap := by
      simp only [Token.shift, hoff]
      omega
    have hstop : (x.shift n).stop = x.stop + n := by
      simp only [Token.stop, Token.shift]
      omega
    exact .token (x := x.shift n) hgap hoff' hw hp hr (hstop ▸ ih)

theorem blanks_append {gap : List Char} (hgap : gap.all isBlank) (h : Cuts (i + bytes gap) q us) :
    Cuts i (gap ++ q) us := by
  cases h with
  | done hq => exact .done (by rw [List.all_append, hgap, hq]; rfl)
  | @token _ gap' rest x more us hgap' hoff hw hp hr hcuts =>
    rw [← List.append_assoc]
    refine .token (by rw [List.all_append, hgap, hgap']; rfl) ?_ hw hp hr hcuts
    rw [hoff, bytes_append, Nat.add_assoc]

/-- The last piece before a blank ends there, as it does at the end of a text. -/
theorem append {c : Char} (h : Cuts i p ts) (hc : isBlank c) (h' : Cuts (i + bytes (p ++ [c])) q us) :
    Cuts i (p ++ c :: q) (ts ++ us) := by
  induction h with
  | @done i gap hgap =>
    rw [List.append_cons]
    exact blanks_append (by rw [List.all_append, hgap, List.all_cons, hc]; rfl) h'
  | @token i gap rest x more ts hgap hoff hw hp hr _ ih =>
    rw [List.append_assoc, List.append_assoc, List.cons_append]
    refine .token hgap hoff hw hp (fun d hd => ?_) (ih ?_)
    · cases rest with
      | nil =>
        obtain rfl := Option.some.inj hd
        exact hw.not_more (isSeparator_of_isBlank hc)
      | cons e rest => exact hr d hd
    · have hstop : x.stop + bytes (rest ++ [c]) = i + bytes (gap ++ (x.text.toList ++ rest) ++ [c]) := by
        simp only [Token.stop, hoff, bytes_append, bytes_toList]
        omega
      rwa [hstop]

end Cuts

theorem tokenize_append_blank (a b : String) {c : Char} (hc : isBlank c) :
    tokenize (a ++ String.singleton c ++ b) =
      tokenize a ++ (tokenize b).map (·.shift (a ++ String.singleton c).utf8ByteSize) := by
  have hbytes : (a ++ String.singleton c).utf8ByteSize = bytes (a.toList ++ [c]) := by
    rw [← bytes_toList, String.toList_append, String.toList_singleton]
  have htext : (a ++ String.singleton c ++ b).toList = a.toList ++ c :: b.toList := by simp
  apply Cuts.tokenize_eq
  rw [htext, hbytes]
  exact (cuts_tokenize a).append hc ((cuts_tokenize b).shift _)

theorem tokenize_of_written {text : String} {x : Lexeme} {more : Char → Bool} (hw : Written x text.toList more)
    (hp : ∀ c ∈ text.toList.head?, isBlank c = false) : tokenize text = [⟨x, text, 0⟩] := by
  apply Cuts.tokenize_eq
  have h : Cuts 0 ([] ++ (text.toList ++ [])) [⟨x, text, 0⟩] :=
    .token (x := ⟨x, text, 0⟩) (List.all_nil ..) rfl hw hp nofun (.done (List.all_nil ..))
  simpa using h

theorem tokenize_slice {text : String} {x : Token} (hx : x ∈ tokenize text) : tokenize x.text = [x.alone] := by
  obtain ⟨more, hw, hp⟩ := (cuts_tokenize text).written x hx
  exact tokenize_of_written hw hp

/-! ## Slices joined again -/

def slices (p : List Char) : List Token := (tokenize (String.ofList p)).map Token.alone

theorem slices_append_blank {c : Char} (hc : isBlank c) (p q : List Char) :
    slices (p ++ c :: q) = slices p ++ slices q := by
  have htext : String.ofList (p ++ c :: q) = String.ofList p ++ String.singleton c ++ String.ofList q := by
    rw [← String.toList_inj]
    simp
  rw [slices, htext, tokenize_append_blank _ _ hc, List.map_append, List.map_map]
  rfl

theorem slices_blanks_append {gap : List Char} (hgap : gap.all isBlank) (q : List Char) :
    slices (gap ++ q) = slices q := by
  induction gap with
  | nil => rfl
  | cons c gap ih =>
    obtain ⟨hc, hgap⟩ := Bool.and_eq_true_iff.1 hgap
    have h := slices_append_blank hc [] (gap ++ q)
    rwa [ih hgap] at h

theorem slices_append_blanks {gap : List Char} (hgap : gap.all isBlank) (p : List Char) :
    slices (p ++ gap) = slices p := by
  cases gap with
  | nil => rw [List.append_nil]
  | cons c gap =>
    obtain ⟨hc, hgap⟩ := Bool.and_eq_true_iff.1 hgap
    have hnone := slices_blanks_append hgap []
    rw [List.append_nil] at hnone
    rw [slices_append_blank hc, hnone]
    exact List.append_nil _

theorem slices_interleave {ts : List Token} {gaps : List (List Char)} (hts : ∀ x ∈ ts, tokenize x.text = [x.alone])
    (hlen : gaps.length = ts.length + 1) (hblank : ∀ gap ∈ gaps, gap.all isBlank)
    (hapart : ∀ gap ∈ gaps.tail.dropLast, gap ≠ []) : slices (interleave gaps ts) = ts.map Token.alone := by
  induction ts generalizing gaps with
  | nil =>
    obtain ⟨gap, rfl⟩ := List.length_eq_one_iff.1 hlen
    exact slices_blanks_append (hblank gap (.head _)) []
  | cons x ts ih =>
    obtain ⟨gap, gaps, rfl⟩ := List.exists_cons_of_length_eq_add_one hlen
    obtain ⟨hgap, hgaps⟩ := List.forall_mem_cons.1 hblank
    obtain ⟨hx, hts⟩ := List.forall_mem_cons.1 hts
    have hslice : slices x.text.toList = [x.alone] := by
      rw [slices, String.ofList_toList, hx]
      rfl
    rw [interleave, List.append_assoc, slices_blanks_append hgap]
    cases ts with
    | nil =>
      obtain ⟨last, rfl⟩ := List.length_eq_one_iff.1 (Nat.succ.inj hlen)
      have hlast : interleave [last] [] = last := List.append_nil last
      rw [hlast, slices_append_blanks (hgaps last (.head _)), hslice]
      rfl
    | cons y ts =>
      -- the gap after `x` has a blank, and what is left of it stands before the next token
      obtain ⟨gap', gaps, rfl⟩ := List.exists_cons_of_length_eq_add_one (Nat.succ.inj hlen)
      obtain ⟨last, gaps, rfl⟩ := List.exists_cons_of_length_eq_add_one (Nat.succ.inj (Nat.succ.inj hlen))
      obtain ⟨c, gap', rfl⟩ := List.exists_cons_of_ne_nil (hapart gap' (.head _))
      obtain ⟨hgap', hgaps⟩ := List.forall_mem_cons.1 hgaps
      obtain ⟨hc, hgap'⟩ := Bool.and_eq_true_iff.1 hgap'
      have hmore := @ih (gap' :: last :: gaps) hts (Nat.succ.inj hlen)
        (List.forall_mem_cons.2 ⟨hgap', hgaps⟩) fun g hg => hapart g (.tail _ hg)
      have hnext : interleave ((c :: gap') :: last :: gaps) (y :: ts) =
          c :: interleave (gap' :: last :: gaps) (y :: ts) := rfl
      rw [hnext, slices_append_blank hc, hslice, hmore]
      rfl

/-- At a blank the tokens of a text are those of its two sides, and each token is the one token of its slice. So
the slices of a text have the same tokens again when they are joined with any blanks, at least one between two of
them. -/
theorem tokenize_at_blanks :
    (∀ a b c, isBlank c → tokenize (a ++ String.singleton c ++ b) =
      tokenize a ++ (tokenize b).map (·.shift (a ++ String.singleton c).utf8ByteSize)) ∧
    (∀ text, ∀ x ∈ tokenize text, tokenize x.text = [x.alone]) ∧
    ∀ text gaps, gaps.length = (tokenize text).length + 1 → (∀ gap ∈ gaps, gap.all isBlank) →
      (∀ gap ∈ gaps.tail.dropLast, gap ≠ []) →
        (tokenize (String.ofList (interleave gaps (tokenize text)))).map Token.alone = (tokenize text).map Token.alone :=
  ⟨fun a b _ hc => tokenize_append_blank a b hc, fun _ _ hx => tokenize_slice hx,
    fun _ _ hlen hblank hapart => slices_interleave (fun _ hx => tokenize_slice hx) hlen hblank hapart⟩

/-- An em space of three bytes after a number that ends in its mark. -/
theorem tokenize_at_blanks_of_mark :
    isBlank '\u2003' ∧ tokenize ("7." ++ String.singleton '\u2003' ++ ".5t") = tokenize "7." ++
        (tokenize ".5t").map (·.shift ("7." ++ String.singleton '\u2003').utf8ByteSize) ∧
      ⟨.constant (Double.literal ['5'] []), "5", 1⟩ ∈ tokenize ".5t" ∧
      tokenize "5" = [⟨.constant (Double.literal ['5'] []), "5", 0⟩] ∧
      (tokenize (String.ofList (interleave [[], ['\t'], ['\u2003', ' '], []] (tokenize ".5t")))).map Token.alone =
        (tokenize ".5t").map Token.alone := by
  have hblank : isBlank '\u2003' := by rfl
  have htokens : tokenize ".5t" =
      [⟨.unknown, ".", 0⟩, ⟨.constant (Double.literal ['5'] []), "5", 1⟩, ⟨.var, "t", 2⟩] := by rfl
  have hx : ⟨.constant (Double.literal ['5'] []), "5", 1⟩ ∈ tokenize ".5t" := by simp [htokens]
  obtain ⟨hjoin, hslice, hrejoin⟩ := tokenize_at_blanks
  exact ⟨hblank, hjoin _ _ _ hblank, hx, hslice _ _ hx,
    hrejoin _ _ (by rw [htokens]; rfl) (by decide) (by decide)⟩

end Calculator
