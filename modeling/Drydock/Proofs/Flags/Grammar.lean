import Drydock.Proofs.Flags
import Drydock.Proofs.Text.Words

/-!
# The grammar of flag lists

A flag text is blanks, then words with blanks between them, then blanks again.  A word is made of
pieces: single characters, and groups in quotes that stand for what is between their quotes.  A
group that is not closed reaches to the end of the text.

A `Layout` is such a reading of a text.  Every text has exactly one, and its words are what
`Flags.split` yields.  From this it follows that texts whose quotes are all closed can be put
together at blanks.

What a part of a text may look like depends on what is behind it: an open group must be the last
thing, a quote is closed by the next one of its kind, and only the last word needs no gap.  `Fits`
says this at each level with the rest of the text as an argument, and the proofs hand it down from
the text to its words and from a word to its pieces.

The three facts about layouts use it in three ways.  That there is one is shown by recursion on the
text, where a group takes a whole run of characters at once.  That there is no other goes part by
part: where two texts begin with a piece, a word or a gap and agree, these agree, since none of them
can be continued into what may stand behind it.  And the scanner walks along the layout, each part
taking it from one state to the next.

Texts can be put together at blanks because closed pieces fit in front of anything.

* `Flags.Piece`, `Flags.Word`, `Flags.Layout` — the parts of a text.
* `Flags.Layout.Spells` — what it means that a text is laid out this way.
* `Flags.QuotesClosed` — no group reaches to the end.
* `Flags.split_layout` — every text has one layout, and cutting yields its words.
-/

namespace Drydock.Flags

open Text (EndsWord EndsGap exists_gap)

variable {cs rest rest' gap gap' : List Char} {mark : Char} {p q : Piece} {ps qs : List Piece}
  {w : Word} {ws vs : List Word}

/-! ## Layouts -/

/-- A piece of a word. -/
inductive Piece where
  /-- A character outside quotes. -/
  | bare (c : Char)
  /-- A group between two quotes. -/
  | group (mark : Char) (content : List Char)
  /-- A group whose quote is not closed. -/
  | openGroup (mark : Char) (content : List Char)
  deriving DecidableEq, Repr

namespace Piece

/-- A piece as it is written. -/
def text : Piece → List Char
  | bare c => [c]
  | group mark content => mark :: (content ++ [mark])
  | openGroup mark content => mark :: content

/-- What a piece stands for: its text without the quotes. -/
def content : Piece → List Char
  | bare c => [c]
  | group _ content => content
  | openGroup _ content => content

/-- Whether the quotes of a piece are closed. -/
def closed : Piece → Bool
  | bare _ => true
  | group _ _ => true
  | openGroup _ _ => false

/-- A piece that may stand in front of `rest`.  A quote is closed by the next one of its kind, and
only a group with nothing behind it may stay open. -/
def Fits (rest : List Char) : Piece → Prop
  | bare c => Text.isBlank c = false ∧ isQuote c = false
  | group mark content => isQuote mark = true ∧ mark ∉ content
  | openGroup mark content => isQuote mark = true ∧ mark ∉ content ∧ rest = []

end Piece

/-- Pieces as they are written. -/
def spelling (ps : List Piece) : List Char := ps.flatMap Piece.text

/-- What the pieces of a word stand for together. -/
def meaning (ps : List Piece) : List Char := ps.flatMap Piece.content

/-- Pieces that may stand in front of `rest`, one behind the other. -/
def PiecesFit (rest : List Char) : List Piece → Prop
  | [] => True
  | p :: ps => p.Fits (spelling ps ++ rest) ∧ PiecesFit rest ps

/-- A word and the blanks behind it. -/
@[ext]
structure Word where
  pieces : List Piece
  gap : List Char
  deriving DecidableEq, Repr

/-- Words as they are written. -/
def textOf (ws : List Word) : List Char := ws.flatMap fun w => spelling w.pieces ++ w.gap

/-- A word that may stand in front of the words `ws`: its pieces fit, and the blanks behind it may
only be missing where the text ends. -/
structure Word.Fits (ws : List Word) (w : Word) : Prop where
  pieces_fit : PiecesFit (w.gap ++ textOf ws) w.pieces
  gap_blank : ∀ c ∈ w.gap, Text.isBlank c = true
  gap_ne : w.gap = [] → ws = []

/-- Words that follow each other, each of at least one piece. -/
def WordsFit : List Word → Prop
  | [] => True
  | w :: ws => (w.pieces ≠ [] ∧ w.Fits ws) ∧ WordsFit ws

/-- The layout of a text: blanks in front, and words with the blanks behind them. -/
@[ext]
structure Layout where
  front : List Char
  words : List Word
  deriving DecidableEq, Repr

namespace Layout

/-- The text has this layout. -/
structure Spells (l : Layout) (cs : List Char) : Prop where
  front_blank : ∀ c ∈ l.front, Text.isBlank c = true
  words_fit : WordsFit l.words
  text_eq : l.front ++ textOf l.words = cs

/-- The words of a layout, without their quotes. -/
def values (l : Layout) : List (List Char) := l.words.map fun w => meaning w.pieces

/-- No group of the layout is left open. -/
def Closed (l : Layout) : Prop := ∀ w ∈ l.words, ∀ p ∈ w.pieces, p.closed = true

end Layout

/-- A text in which every quote that opens a group is closed again. -/
def QuotesClosed (text : String) : Prop :=
  ∃ l : Layout, l.Spells text.toList ∧ l.Closed

@[simp] lemma spelling_nil : spelling [] = [] := rfl

@[simp] lemma spelling_cons (p : Piece) (ps : List Piece) :
    spelling (p :: ps) = p.text ++ spelling ps := rfl

@[simp] lemma meaning_nil : meaning [] = [] := rfl

@[simp] lemma meaning_cons (p : Piece) (ps : List Piece) :
    meaning (p :: ps) = p.content ++ meaning ps := rfl

@[simp] lemma textOf_nil : textOf [] = [] := rfl

@[simp] lemma textOf_cons (w : Word) (ws : List Word) :
    textOf (w :: ws) = spelling w.pieces ++ (w.gap ++ textOf ws) := by
  simp [textOf]

/-! ## Where a piece, a word or a gap ends -/

lemma Piece.Fits.text_eq_cons (h : p.Fits rest) :
    ∃ c more, p.text = c :: more ∧ Text.isBlank c = false := by
  have hmark : ∀ mark, isQuote mark = true → Text.isBlank mark = false := fun mark hquote =>
    Bool.eq_false_iff.2 fun hblank => by simp [isQuote_of_isBlank hblank] at hquote
  cases p with
  | bare c => exact ⟨c, [], rfl, h.1⟩
  | group mark content => exact ⟨mark, _, rfl, hmark mark h.1⟩
  | openGroup mark content => exact ⟨mark, _, rfl, hmark mark h.1⟩

lemma endsGap_spelling (hps : ps ≠ []) (h : PiecesFit rest ps) (back : List Char) :
    EndsGap (spelling ps ++ back) := by
  cases ps with
  | nil => exact absurd rfl hps
  | cons p ps =>
      obtain ⟨c, more, htext, hc⟩ := h.1.text_eq_cons
      simpa [EndsGap, htext] using hc

lemma endsGap_textOf (h : WordsFit ws) : EndsGap (textOf ws) := by
  cases ws with
  | nil => simp [EndsGap]
  | cons w ws =>
      rw [textOf_cons]
      exact endsGap_spelling h.1.1 h.1.2.pieces_fit _

lemma endsWord_append (hgap : ∀ c ∈ gap, Text.isBlank c = true) (hrest : gap = [] → EndsWord rest) :
    EndsWord (gap ++ rest) := by
  cases gap with
  | nil => exact hrest rfl
  | cons c gap => simpa [EndsWord] using hgap c List.mem_cons_self

lemma Word.Fits.endsWord (h : w.Fits ws) : EndsWord (w.gap ++ textOf ws) :=
  endsWord_append h.gap_blank fun hgap => by simp [h.gap_ne hgap, EndsWord]

/-! ## Every text has a layout -/

lemma Word.Fits.cons (h : w.Fits ws) (hp : p.Fits (spelling w.pieces ++ (w.gap ++ textOf ws))) :
    Word.Fits ws ⟨p :: w.pieces, w.gap⟩ :=
  ⟨⟨hp, h.pieces_fit⟩, h.gap_blank, h.gap_ne⟩

/-- Behind a gap a text goes on with a word, or it has ended. -/
lemma exists_wordsFit (h : w.Fits ws) (hws : WordsFit ws)
    (hend : EndsGap (spelling w.pieces ++ (w.gap ++ textOf ws))) :
    ∃ vs, WordsFit vs ∧ textOf vs = spelling w.pieces ++ (w.gap ++ textOf ws) := by
  by_cases hpieces : w.pieces = []
  · have hgap : w.gap = [] := by
      refine List.eq_nil_iff_forall_not_mem.2 fun c hc => ?_
      obtain ⟨d, gap, hgap⟩ := List.exists_cons_of_ne_nil (List.ne_nil_of_mem hc)
      have hblank := h.gap_blank d (by simp [hgap])
      rw [hend d (by simp [hpieces, hgap])] at hblank
      contradiction
    exact ⟨[], trivial, by simp [hpieces, hgap, h.gap_ne hgap]⟩
  · exact ⟨w :: ws, ⟨⟨hpieces, h⟩, hws⟩, textOf_cons w ws⟩

/-- A text that begins inside a word goes on with the rest of the word, a gap and more words. -/
lemma exists_word (cs : List Char) : ∃ w ws, Word.Fits ws w ∧ WordsFit ws ∧
    spelling w.pieces ++ (w.gap ++ textOf ws) = cs := by
  -- A group and a gap take more than one character, so the induction is on the length.
  induction hlength : cs.length using Nat.strong_induction_on generalizing cs with
  | h n ih =>
    subst hlength
    cases cs with
    | nil => exact ⟨⟨[], []⟩, [], ⟨trivial, by simp, fun _ => rfl⟩, trivial, rfl⟩
    | cons c rest =>
      by_cases hquote : isQuote c = true
      -- A quote that comes again closes its group there, and one that does not leaves it open.
      · by_cases hmem : c ∈ rest
        · obtain ⟨content, behind, rfl, hnot⟩ := List.eq_append_cons_of_mem hmem
          have hshort : behind.length < (c :: (content ++ c :: behind)).length := by
            simp only [List.length_cons, List.length_append]
            omega
          obtain ⟨w, ws, hw, hws, rfl⟩ := ih behind.length hshort behind rfl
          have hfits : (Piece.group c content).Fits (spelling w.pieces ++ (w.gap ++ textOf ws)) :=
            ⟨hquote, hnot⟩
          exact ⟨_, ws, hw.cons hfits, hws, by simp [Piece.text]⟩
        · exact ⟨⟨[.openGroup c rest], []⟩, [],
            ⟨⟨⟨hquote, hmem, rfl⟩, trivial⟩, by simp, fun _ => rfl⟩, trivial, by simp [Piece.text]⟩
      · by_cases hblank : Text.isBlank c = true
        · obtain ⟨gap, behind, rfl, hgap, hend⟩ := exists_gap rest
          have hshort : behind.length < (c :: (gap ++ behind)).length := by
            simp only [List.length_cons, List.length_append]
            omega
          obtain ⟨w, ws, hw, hws, rfl⟩ := ih behind.length hshort behind rfl
          obtain ⟨vs, hvs, htext⟩ := exists_wordsFit hw hws hend
          exact ⟨⟨[], c :: gap⟩, vs, ⟨trivial, List.forall_mem_cons.2 ⟨hblank, hgap⟩, by simp⟩, hvs,
            by simp [htext]⟩
        · obtain ⟨w, ws, hw, hws, rfl⟩ := ih rest.length (by simp) rest rfl
          have hfits : (Piece.bare c).Fits (spelling w.pieces ++ (w.gap ++ textOf ws)) :=
            ⟨Bool.eq_false_iff.2 hblank, Bool.eq_false_iff.2 hquote⟩
          exact ⟨_, ws, hw.cons hfits, hws, by simp [Piece.text]⟩

lemma exists_spells (cs : List Char) : ∃ l : Layout, l.Spells cs := by
  obtain ⟨front, rest, rfl, hfront, hend⟩ := exists_gap cs
  obtain ⟨w, ws, hw, hws, rfl⟩ := exists_word rest
  obtain ⟨vs, hvs, htext⟩ := exists_wordsFit hw hws hend
  exact ⟨⟨front, vs⟩, hfront, hvs, by rw [htext]⟩

/-! ## No text has two layouts -/

/-- Blanks, and what follows them, are told apart by the first character that is not blank. -/
lemma gap_unique (hgap : ∀ c ∈ gap, Text.isBlank c = true)
    (hgap' : ∀ c ∈ gap', Text.isBlank c = true) (hrest : EndsGap rest) (hrest' : EndsGap rest')
    (h : gap ++ rest = gap' ++ rest') : gap = gap' ∧ rest = rest' := by
  have hdrop : rest = rest' := by
    have hdrop := congrArg (List.dropWhile Text.isBlank) h
    rwa [List.dropWhile_append_of_pos hgap, List.dropWhile_append_of_pos hgap',
      Text.dropWhile_isBlank_eq_self hrest, Text.dropWhile_isBlank_eq_self hrest'] at hdrop
  subst hdrop
  exact ⟨List.append_cancel_right h, rfl⟩

lemma content_ne {content content' : List Char} (hc' : mark ∉ content') :
    content ++ mark :: rest ≠ content' :=
  fun h => hc' (h ▸ List.mem_append_right _ List.mem_cons_self)

/-- The first piece of a text is determined. -/
lemma Piece.Fits.unique (hp : p.Fits rest) (hq : q.Fits rest')
    (h : p.text ++ rest = q.text ++ rest') : p = q ∧ rest = rest' := by
  -- A character that stands for itself is not a quote.
  have hbare : ∀ {c mark}, isQuote c = false → isQuote mark = true → c ≠ mark := by
    rintro c mark hc hmark rfl
    exact absurd (hc.symm.trans hmark) (by decide)
  cases p with
  | bare c =>
      cases q with
      | bare d => simpa [Piece.text] using h
      | group mark content | openGroup mark content =>
          exact absurd (List.cons.inj h).1 (hbare hp.2 hq.1)
  | group mark content =>
      cases q with
      | bare d => exact absurd (List.cons.inj h).1.symm (hbare hq.2 hp.1)
      | group mark' content' =>
          simp only [Piece.text, List.cons_append, List.append_assoc, List.nil_append,
            List.cons.injEq] at h
          obtain ⟨rfl, h⟩ := h
          obtain ⟨rfl, hrest⟩ := (Text.append_sep_inj hp.2 hq.2).1 h
          exact ⟨rfl, hrest⟩
      | openGroup mark' content' =>
          obtain ⟨-, hnot, rfl⟩ := hq
          simp only [Piece.text, List.cons_append, List.append_assoc, List.nil_append,
            List.append_nil, List.cons.injEq] at h
          obtain ⟨rfl, h⟩ := h
          exact absurd h (content_ne hnot)
  | openGroup mark content =>
      obtain ⟨hmark, hnot, rfl⟩ := hp
      cases q with
      | bare d => exact absurd (List.cons.inj h).1.symm (hbare hq.2 hmark)
      | group mark' content' =>
          simp only [Piece.text, List.cons_append, List.append_assoc, List.nil_append,
            List.append_nil, List.cons.injEq] at h
          obtain ⟨rfl, h⟩ := h
          exact absurd h.symm (content_ne hnot)
      | openGroup mark' content' =>
          obtain ⟨-, -, rfl⟩ := hq
          simpa [Piece.text] using h

lemma Piece.Fits.text_ne (hp : p.Fits rest) (hend : EndsWord rest') : rest' ≠ p.text ++ rest := by
  rintro rfl
  obtain ⟨c, more, htext, hc⟩ := hp.text_eq_cons
  have hblank := hend c (by simp [htext])
  exact absurd (hc.symm.trans hblank) (by decide)

/-- The pieces of the first word are determined. -/
lemma pieces_unique (hps : PiecesFit rest ps) (hqs : PiecesFit rest' qs) (hrest : EndsWord rest)
    (hrest' : EndsWord rest') (h : spelling ps ++ rest = spelling qs ++ rest') :
    ps = qs ∧ rest = rest' := by
  induction ps generalizing qs with
  | nil =>
      -- A word that has ended and one that goes on differ in their next character.
      cases qs with
      | nil => exact ⟨rfl, h⟩
      | cons q qs =>
          rw [spelling_nil, List.nil_append, spelling_cons, List.append_assoc] at h
          exact absurd h (hqs.1.text_ne hrest)
  | cons p ps ih =>
      cases qs with
      | nil =>
          rw [spelling_nil, List.nil_append, spelling_cons, List.append_assoc] at h
          exact absurd h.symm (hps.1.text_ne hrest')
      | cons q qs =>
          rw [spelling_cons, spelling_cons, List.append_assoc, List.append_assoc] at h
          obtain ⟨rfl, hbehind⟩ := hps.1.unique hqs.1 h
          obtain ⟨rfl, hsame⟩ := ih hps.2 hqs.2 hbehind
          exact ⟨rfl, hsame⟩

lemma words_unique (hws : WordsFit ws) (hvs : WordsFit vs) (h : textOf ws = textOf vs) :
    ws = vs := by
  have hne : ∀ {w ws}, WordsFit (w :: ws) → textOf (w :: ws) ≠ [] := by
    intro w ws hfit hnil
    obtain ⟨p, ps, hpieces⟩ := List.exists_cons_of_ne_nil hfit.1.1
    have hfits := hfit.1.2.pieces_fit
    rw [hpieces] at hfits
    obtain ⟨c, more, htext, -⟩ := hfits.1.text_eq_cons
    simp [hpieces, htext] at hnil
  induction ws generalizing vs with
  | nil =>
      cases vs with
      | nil => rfl
      | cons v vs => exact absurd h.symm (hne hvs)
  | cons w ws ih =>
      cases vs with
      | nil => exact absurd h (hne hws)
      | cons v vs =>
          rw [textOf_cons, textOf_cons] at h
          -- First the pieces are told from the gap, then the gap from the words behind it.
          obtain ⟨hpieces, hbehind⟩ := pieces_unique hws.1.2.pieces_fit hvs.1.2.pieces_fit
            hws.1.2.endsWord hvs.1.2.endsWord h
          obtain ⟨hgap, hmore⟩ := gap_unique hws.1.2.gap_blank hvs.1.2.gap_blank
            (endsGap_textOf hws.2) (endsGap_textOf hvs.2) hbehind
          rw [Word.ext hpieces hgap, ih hws.2 hvs.2 hmore]

lemma Layout.Spells.unique {l l' : Layout} (h : l.Spells cs) (h' : l'.Spells cs) : l = l' := by
  obtain ⟨hfront, htext⟩ := gap_unique h.front_blank h'.front_blank (endsGap_textOf h.words_fit)
    (endsGap_textOf h'.words_fit) (h.text_eq.trans h'.text_eq.symm)
  exact Layout.ext hfront (words_unique h.words_fit h'.words_fit htext)

/-! ## Cutting yields the words of the layout -/

lemma scan_between_gap (hgap : ∀ c ∈ gap, Text.isBlank c = true) (rest : List Char) :
    scan .between (gap ++ rest) = scan .between rest := by
  induction gap with
  | nil => rfl
  | cons c gap ih =>
      obtain ⟨hc, hgap⟩ := List.forall_mem_cons.1 hgap
      rw [List.cons_append, scan_between_blank hc, ih hgap]

/-- Inside a word, a piece adds what it stands for. -/
lemma scan_bare_piece (hp : p.Fits rest) (word : List Char) :
    scan (.bare word) (p.text ++ rest) = scan (.bare (word ++ p.content)) rest := by
  cases p with
  | bare c => exact scan_bare_append fun d hd => by rwa [List.mem_singleton.1 hd]
  | group mark content =>
      calc scan (.bare word) (mark :: (content ++ [mark]) ++ rest)
          = scan (.quoted mark word) (content ++ mark :: rest) := by simp [scan, hp.1]
        _ = scan (.quoted mark (word ++ content)) (mark :: rest) := scan_quoted_append hp.2
        _ = scan (.bare (word ++ content)) rest := by rw [scan, if_pos rfl]
  | openGroup mark content =>
      obtain ⟨hmark, hnot, rfl⟩ := hp
      calc scan (.bare word) (mark :: content ++ [])
          = scan (.quoted mark word) (content ++ []) := by simp [scan, hmark]
        _ = scan (.quoted mark (word ++ content)) [] := scan_quoted_append hnot

lemma scan_between_piece (hp : p.Fits rest) :
    scan .between (p.text ++ rest) = scan (.bare []) (p.text ++ rest) := by
  cases p with
  | bare c => simp [Piece.text, scan, hp.1, hp.2]
  | group mark content => simp [Piece.text, scan, hp.1]
  | openGroup mark content => simp [Piece.text, scan, hp.1]

lemma scan_bare_pieces (hps : PiecesFit rest ps) (word : List Char) :
    scan (.bare word) (spelling ps ++ rest) = scan (.bare (word ++ meaning ps)) rest := by
  induction ps generalizing word with
  | nil => simp
  | cons p ps ih =>
      rw [spelling_cons, List.append_assoc, scan_bare_piece hps.1, ih hps.2, meaning_cons,
        List.append_assoc]

lemma scan_between_word (hne : ps ≠ []) (hps : PiecesFit rest ps) (hrest : EndsWord rest) :
    scan .between (spelling ps ++ rest) = meaning ps :: scan .between rest := by
  cases ps with
  | nil => exact absurd rfl hne
  | cons p ps =>
      rw [spelling_cons, List.append_assoc, scan_between_piece hps.1, ← List.append_assoc,
        ← spelling_cons, scan_bare_pieces hps, List.nil_append, scan_bare_of_blank hrest]

lemma PiecesFit.of_closed (hps : PiecesFit rest ps) (hclosed : ∀ p ∈ ps, p.closed = true)
    (rest' : List Char) : PiecesFit rest' ps := by
  induction ps with
  | nil => trivial
  | cons p ps ih =>
      obtain ⟨hp, hmore⟩ := List.forall_mem_cons.1 hclosed
      refine ⟨?_, ih hps.2 hmore⟩
      cases p with
      | bare c => exact hps.1
      | group mark content => exact hps.1
      | openGroup mark content => simp [Piece.closed] at hp

/-- Words are read one after the other.  Where a group is left open there is nothing behind them. -/
lemma scan_between_words (hws : WordsFit ws) (hrest : EndsWord rest)
    (hclosed : rest = [] ∨ ∀ w ∈ ws, ∀ p ∈ w.pieces, p.closed = true) :
    scan .between (textOf ws ++ rest) =
      (ws.map fun w => meaning w.pieces) ++ scan .between rest := by
  induction ws with
  | nil => rfl
  | cons w ws ih =>
      obtain ⟨⟨hne, hfits⟩, hmore⟩ := hws
      -- An open group fits only if nothing follows; closed ones fit in front of `rest` as well.
      have hpieces : PiecesFit (w.gap ++ (textOf ws ++ rest)) w.pieces := by
        rcases hclosed with rfl | hclosed
        · rw [List.append_nil]
          exact hfits.pieces_fit
        · exact hfits.pieces_fit.of_closed (hclosed w List.mem_cons_self) _
      have hend : EndsWord (w.gap ++ (textOf ws ++ rest)) :=
        endsWord_append hfits.gap_blank fun hgap => by rwa [hfits.gap_ne hgap]
      have hwords := ih hmore (hclosed.imp_right fun h v hv => h v (List.mem_cons_of_mem w hv))
      rw [textOf_cons, List.append_assoc, List.append_assoc, scan_between_word hne hpieces hend,
        scan_between_gap hfits.gap_blank, hwords]
      rfl

lemma Layout.Spells.splitChars_eq {l : Layout} (h : l.Spells cs) : splitChars cs = l.values := by
  have hend : EndsWord [] := by simp [EndsWord]
  have hwords := scan_between_words h.words_fit hend (.inl rfl)
  rw [List.append_nil] at hwords
  rw [splitChars, ← h.text_eq, scan_between_gap h.front_blank, hwords]
  simp [scan, values]

/-- Behind closed quotes, a blank separates the words on its two sides. -/
lemma Layout.Spells.splitChars_append {l : Layout} (h : l.Spells cs) (hclosed : l.Closed)
    (hgap : ∀ c ∈ gap, Text.isBlank c = true) (hne : gap ≠ []) (rest : List Char) :
    splitChars (cs ++ gap ++ rest) = splitChars cs ++ splitChars rest := by
  have hend : EndsWord (gap ++ rest) := endsWord_append hgap fun hnil => absurd hnil hne
  rw [h.splitChars_eq, splitChars, ← h.text_eq, List.append_assoc, List.append_assoc,
    scan_between_gap h.front_blank, scan_between_words h.words_fit hend (.inr hclosed),
    scan_between_gap hgap]
  rfl

/-! ## Closed quotes -/

/-- The quote that is open at the end of a text, where `mark` is open in front of it. -/
def openMark : Option Char → List Char → Option Char
  | mark, [] => mark
  | none, c :: rest => openMark (if isQuote c then some c else none) rest
  | some mark, c :: rest => openMark (if c = mark then none else some mark) rest

lemma openMark_content {content : List Char} (h : mark ∉ content) (rest : List Char) :
    openMark (some mark) (content ++ rest) = openMark (some mark) rest := by
  induction content with
  | nil => rfl
  | cons c content ih =>
      obtain ⟨hc, hcontent⟩ := not_or.1 (List.mem_cons.not.1 h)
      rw [List.cons_append, openMark, if_neg (Ne.symm hc), ih hcontent]

lemma openMark_gap (hgap : ∀ c ∈ gap, Text.isBlank c = true) (rest : List Char) :
    openMark none (gap ++ rest) = openMark none rest := by
  induction gap with
  | nil => rfl
  | cons c gap ih =>
      obtain ⟨hc, hgap⟩ := List.forall_mem_cons.1 hgap
      simp [openMark, isQuote_of_isBlank hc, ih hgap]

lemma openMark_piece (hp : p.Fits rest) :
    openMark none (p.text ++ rest) = none ↔ p.closed = true ∧ openMark none rest = none := by
  cases p with
  | bare c => simp [Piece.text, Piece.closed, openMark, hp.2]
  | group mark content =>
      simp [Piece.text, Piece.closed, openMark, hp.1, openMark_content hp.2]
  | openGroup mark content =>
      obtain ⟨hmark, hnot, rfl⟩ := hp
      have hopen := openMark_content hnot []
      rw [List.append_nil] at hopen
      simp [Piece.text, Piece.closed, openMark, hmark, hopen]

lemma openMark_pieces (hps : PiecesFit rest ps) :
    openMark none (spelling ps ++ rest) = none ↔
      (∀ p ∈ ps, p.closed = true) ∧ openMark none rest = none := by
  induction ps with
  | nil => simp
  | cons p ps ih =>
      rw [spelling_cons, List.append_assoc, openMark_piece hps.1, ih hps.2, List.forall_mem_cons,
        and_assoc]

lemma openMark_words (hws : WordsFit ws) :
    openMark none (textOf ws) = none ↔ ∀ w ∈ ws, ∀ p ∈ w.pieces, p.closed = true := by
  induction ws with
  | nil => simp [openMark]
  | cons w ws ih =>
      rw [textOf_cons, openMark_pieces hws.1.2.pieces_fit, openMark_gap hws.1.2.gap_blank,
        ih hws.2, List.forall_mem_cons]

/-- Whether the quotes of a text are closed is found by reading it once. -/
lemma quotesClosed_iff {text : String} :
    QuotesClosed text ↔ openMark none text.toList = none := by
  have hclosed : ∀ {l : Layout}, l.Spells text.toList →
      (openMark none text.toList = none ↔ l.Closed) := by
    intro l h
    rw [← h.text_eq, openMark_gap h.front_blank, openMark_words h.words_fit, Layout.Closed]
  constructor
  · rintro ⟨l, h, hl⟩
    exact (hclosed h).2 hl
  · intro hnone
    obtain ⟨l, h⟩ := exists_spells text.toList
    exact ⟨l, h, (hclosed h).1 hnone⟩

instance (text : String) : Decidable (QuotesClosed text) := decidable_of_iff' _ quotesClosed_iff

/-! ## Cutting -/

lemma split_append_of_closed {text gap : String} (h : QuotesClosed text) (hne : gap ≠ "")
    (hgap : ∀ c ∈ gap.toList, Text.isBlank c = true) (rest : String) :
    split (text ++ gap ++ rest) = split text ++ split rest := by
  obtain ⟨l, hl, hclosed⟩ := h
  have hgap_ne : gap.toList ≠ [] := by simpa using hne
  rw [split, String.toList_append, String.toList_append,
    hl.splitChars_append hclosed hgap hgap_ne, List.map_append]
  rfl

/-- Every text has exactly one layout: blanks, and words with blanks between them, each made of
characters and of groups in quotes.  Cutting the text yields the words of its layout.  So a text
whose quotes are all closed yields the same words when blanks and more text are put behind it. -/
theorem split_layout (text : String) :
    (∃! l : Layout, l.Spells text.toList) ∧
      (∀ l : Layout, l.Spells text.toList → split text = l.values.map .ofList) ∧
      ∀ gap rest : String, QuotesClosed text → gap ≠ "" →
        (∀ c ∈ gap.toList, Text.isBlank c = true) →
        split (text ++ gap ++ rest) = split text ++ split rest := by
  obtain ⟨l, hl⟩ := exists_spells text.toList
  refine ⟨⟨l, hl, fun l' hl' => hl'.unique hl⟩, fun l' hl' => ?_, fun gap rest h hne hgap =>
    split_append_of_closed h hne hgap rest⟩
  rw [split, hl'.splitChars_eq]

theorem split_layout_quoted :
    QuotesClosed "-I'/opt/my dir'/x" ∧
      split ("-I'/opt/my dir'/x" ++ "\t " ++ "-D\"a b") = ["-I/opt/my dir/x", "-Da b"] := by
  have hclosed : QuotesClosed "-I'/opt/my dir'/x" := by decide
  have happend := (split_layout "-I'/opt/my dir'/x").2.2 "\t " "-D\"a b" hclosed (by decide)
    (List.all_eq_true.1 (by decide))
  exact ⟨hclosed, happend.trans (by decide)⟩

/-- An open group swallows the blanks behind its text. -/
example : split ("-D'a" ++ " " ++ "-O2") = ["-Da -O2"] := by decide

end Drydock.Flags
