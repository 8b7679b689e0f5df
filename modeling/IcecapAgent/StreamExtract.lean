import Mathlib.Data.List.Basic
import Mathlib.Data.List.Infix

/- Incremental extraction of items from a stream that arrives in pieces.

   An extractor looks at a buffer and either cuts one item off its front, asks
   for more input, or fails. Its laws say that it only ever decides on bytes it
   has seen: a decision taken on a buffer stands whatever is appended later.
   From these laws alone:

   1. `drain_append` — draining `x ++ y` is draining `x`, then draining its rest
      followed by `y`;
   2. `feed_drain` — a stream fed in pieces gives the items, and the ending, of
      the stream fed whole, so the cuts do not matter (`feed_cuts`);
   3. with an encoder that the extractor undoes (`Framing`), draining an
      encoded list gives the list back (`drain_encode`), draining a prefix of it
      gives the items wholly inside the prefix (`drain_prefix`), and no input is
      lost or invented by draining (`drain_conserves`).

   The last part is about the other end, streams that are written item by item.

   Nothing here depends on what the items or the symbols are. -/
namespace StreamExtract

/-- What an extractor makes of a buffer: it needs more input, it cuts off one
item and leaves the rest, or it fails. -/
inductive Cut (α β ε : Type) where
  | more
  | item (b : β) (rest : List α)
  | fail (e : ε)
  deriving DecidableEq, Repr

/-- An extractor of items `β` from a stream over `α`. -/
structure Extractor (α β ε : Type) where
  cut : List α → Cut α β ε
  cut_nil : cut [] = .more
  item_shrinks : ∀ {buf b rest}, cut buf = .item b rest → rest.length < buf.length
  item_append : ∀ {buf b rest}, cut buf = .item b rest → ∀ tail, cut (buf ++ tail) = .item b (rest ++ tail)
  fail_append : ∀ {buf e}, cut buf = .fail e → ∀ tail, cut (buf ++ tail) = .fail e

/-- The outcome of extracting as long as possible: the items in order, what is
left of the buffer, and the failure that stopped the extraction, if one did. -/
structure Drained (α β ε : Type) where
  items : List β
  rest : List α
  error : Option ε
  deriving DecidableEq, Repr

namespace Extractor

variable {α β ε : Type} (E : Extractor α β ε)

/-- Cut items off the front of the buffer until no more can be cut. -/
def drain (buf : List α) : Drained α β ε :=
  match _h : E.cut buf with
  | .more => ⟨[], buf, none⟩
  | .fail e => ⟨[], buf, some e⟩
  | .item b rest =>
    let d := drain rest
    ⟨b :: d.items, d.rest, d.error⟩
termination_by buf.length
decreasing_by exact E.item_shrinks _h

/-- Feed a stream piece by piece: each piece is appended to what the buffer
holds, and the buffer is drained before the next piece; a failure ends it. -/
def feed (buf : List α) : List (List α) → Drained α β ε
  | [] => ⟨[], buf, none⟩
  | piece :: pieces =>
    let d := E.drain (buf ++ piece)
    match d.error with
    | some e => ⟨d.items, d.rest, some e⟩
    | none =>
      let r := feed d.rest pieces
      ⟨d.items ++ r.items, r.rest, r.error⟩

variable {E}

theorem drain_more {buf : List α} (h : E.cut buf = .more) : E.drain buf = ⟨[], buf, none⟩ := by
  rw [drain]; split <;> simp_all

theorem drain_fail {buf : List α} {e : ε} (h : E.cut buf = .fail e) :
    E.drain buf = ⟨[], buf, some e⟩ := by
  rw [drain]; split <;> simp_all

theorem drain_item {buf rest : List α} {b : β} (h : E.cut buf = .item b rest) :
    E.drain buf = ⟨b :: (E.drain rest).items, (E.drain rest).rest, (E.drain rest).error⟩ := by
  rw [drain]; split <;> simp_all

/-- Induction along an extraction: on a buffer from which an item is cut, the
claim may be assumed of what the cut leaves. -/
theorem drain_induction {motive : List α → Prop} (more : ∀ buf, E.cut buf = .more → motive buf)
    (fail : ∀ buf e, E.cut buf = .fail e → motive buf)
    (item : ∀ buf b rest, E.cut buf = .item b rest → motive rest → motive buf) :
    ∀ buf, motive buf := by
  intro buf
  induction hn : buf.length using Nat.strongRecOn generalizing buf with
  | ind n ih =>
    subst hn
    cases h : E.cut buf with
    | more => exact more buf h
    | fail e => exact fail buf e h
    | item b rest => exact item buf b rest h (ih rest.length (E.item_shrinks h) rest rfl)

theorem cut_drain_rest (buf : List α) (h : (E.drain buf).error = none) :
    E.cut (E.drain buf).rest = .more := by
  induction buf using drain_induction (E := E) with
  | more buf hm => rw [drain_more hm]; exact hm
  | fail buf e hf => rw [drain_fail hf] at h; simp at h
  | item buf b rest hi ih =>
    rw [drain_item hi] at h ⊢
    exact ih h

theorem cut_drain_rest_fail (buf : List α) {e : ε} (h : (E.drain buf).error = some e) :
    E.cut (E.drain buf).rest = .fail e := by
  induction buf using drain_induction (E := E) with
  | more buf hm => rw [drain_more hm] at h; simp at h
  | fail buf e' hf =>
    rw [drain_fail hf] at h ⊢
    obtain rfl : e' = e := by simpa using h
    exact hf
  | item buf b rest hi ih =>
    rw [drain_item hi] at h ⊢
    exact ih h

theorem drain_append (x y : List α) (h : (E.drain x).error = none) :
    E.drain (x ++ y) =
      ⟨(E.drain x).items ++ (E.drain ((E.drain x).rest ++ y)).items,
        (E.drain ((E.drain x).rest ++ y)).rest, (E.drain ((E.drain x).rest ++ y)).error⟩ := by
  induction x using drain_induction (E := E) with
  | more x hm => rw [drain_more hm]; simp
  | fail x e hf => rw [drain_fail hf] at h; simp at h
  | item x b rest hi ih =>
    rw [drain_item hi] at h ⊢
    rw [drain_item (E.item_append hi y), ih h]
    simp

theorem drain_append_fail (x y : List α) {e : ε} (h : (E.drain x).error = some e) :
    E.drain (x ++ y) = ⟨(E.drain x).items, (E.drain x).rest ++ y, some e⟩ := by
  induction x using drain_induction (E := E) with
  | more x hm => rw [drain_more hm] at h; simp at h
  | fail x e' hf =>
    rw [drain_fail hf] at h ⊢
    rw [drain_fail (E.fail_append hf y)]
    simp_all
  | item x b rest hi ih =>
    rw [drain_item hi] at h ⊢
    rw [drain_item (E.item_append hi y), ih h]

/-- **A stream fed in pieces is the stream fed whole**: same items, same ending,
and the same rest unless it fails. -/
theorem feed_drain (pieces : List (List α)) (buf : List α) (hq : E.cut buf = .more) :
    (E.feed buf pieces).items = (E.drain (buf ++ pieces.flatten)).items ∧
    (E.feed buf pieces).error = (E.drain (buf ++ pieces.flatten)).error ∧
    ((E.feed buf pieces).error = none →
      (E.feed buf pieces).rest = (E.drain (buf ++ pieces.flatten)).rest) := by
  induction pieces generalizing buf with
  | nil => simp [feed, drain_more hq]
  | cons piece pieces ih =>
    rw [List.flatten_cons, ← List.append_assoc]
    simp only [feed]
    cases he : (E.drain (buf ++ piece)).error with
    | some e =>
      rw [drain_append_fail (buf ++ piece) pieces.flatten he]
      exact ⟨rfl, rfl, fun h => by simp at h⟩
    | none =>
      obtain ⟨hi, herr, hrest⟩ := ih _ (cut_drain_rest _ he)
      rw [drain_append (buf ++ piece) pieces.flatten he]
      exact ⟨by rw [hi], herr, hrest⟩

/-- **The cuts do not matter.** -/
theorem feed_cuts {p q : List (List α)} {buf : List α} (hq : E.cut buf = .more)
    (hsame : p.flatten = q.flatten) :
    (E.feed buf p).items = (E.feed buf q).items ∧ (E.feed buf p).error = (E.feed buf q).error ∧
    ((E.feed buf p).error = none → (E.feed buf p).rest = (E.feed buf q).rest) := by
  obtain ⟨ip, ep, rp⟩ := feed_drain p buf hq
  obtain ⟨iq, eq, rq⟩ := feed_drain q buf hq
  rw [hsame] at ip ep rp
  refine ⟨ip.trans iq.symm, ep.trans eq.symm, fun h => ?_⟩
  rw [rp h, rq (by rw [eq, ← ep]; exact h)]

end Extractor

/-- An extractor together with the encoder it undoes. `fits` is the domain on
which encoding and extraction agree. -/
structure Framing (α β ε : Type) extends Extractor α β ε where
  encode : β → List α
  fits : β → Prop
  cut_encode : ∀ {b}, fits b → cut (encode b) = .item b []
  encode_cut : ∀ {buf b rest}, cut buf = .item b rest → encode b ++ rest = buf

namespace Framing

variable {α β ε : Type} {F : Framing α β ε}

theorem cut_encode_append {b : β} (hb : F.fits b) (tail : List α) :
    F.cut (F.encode b ++ tail) = .item b tail := by
  simpa using F.item_append (F.cut_encode hb) tail

/-- An encoding that has not arrived whole is waited for: deciding on a proper
prefix would decide differently on the whole. -/
theorem cut_of_unfinished {b : β} (hb : F.fits b) {p q : List α} (hpq : F.encode b = p ++ q)
    (hq : q ≠ []) : F.cut p = .more := by
  have hwhole := F.cut_encode hb
  rw [hpq] at hwhole
  cases h : F.cut p with
  | more => rfl
  | fail e => rw [F.fail_append h q] at hwhole; simp at hwhole
  | item b' rest =>
    rw [F.item_append h q] at hwhole
    simp [hq] at hwhole

theorem drain_conserves (buf : List α) :
    ((F.drain buf).items.map F.encode).flatten ++ (F.drain buf).rest = buf := by
  induction buf using Extractor.drain_induction (E := F.toExtractor) with
  | more buf hm => rw [Extractor.drain_more hm]; simp
  | fail buf e hf => rw [Extractor.drain_fail hf]; simp
  | item buf b rest hi ih =>
    rw [Extractor.drain_item hi]
    simp only [List.map_cons, List.flatten_cons, List.append_assoc, ih]
    exact F.encode_cut hi

theorem drain_encode_append (bs : List β) (hbs : ∀ b ∈ bs, F.fits b) (tail : List α) :
    F.drain ((bs.map F.encode).flatten ++ tail) =
      ⟨bs ++ (F.drain tail).items, (F.drain tail).rest, (F.drain tail).error⟩ := by
  induction bs with
  | nil => simp
  | cons b bs ih =>
    simp only [List.map_cons, List.flatten_cons, List.append_assoc]
    rw [Extractor.drain_item (cut_encode_append (hbs b (by simp)) _),
      ih (fun x hx => hbs x (by simp [hx]))]
    simp

/-- **Draining an encoded list gives the list back.** -/
theorem drain_encode (bs : List β) (hbs : ∀ b ∈ bs, F.fits b) :
    F.drain (bs.map F.encode).flatten = ⟨bs, [], none⟩ := by
  have h := drain_encode_append bs hbs []
  rw [Extractor.drain_more F.cut_nil] at h
  simpa using h

/-- **Draining a prefix of an encoded list gives the items wholly inside it.** -/
theorem drain_prefix (bs : List β) (hbs : ∀ b ∈ bs, F.fits b) {p : List α}
    (hp : p <+: (bs.map F.encode).flatten) :
    (F.drain p).error = none ∧ ∃ n, (F.drain p).items = bs.take n ∧
      ∀ i < bs.length, i < n ↔ ((bs.take (i + 1)).map F.encode).flatten <+: p := by
  induction bs generalizing p with
  | nil =>
    obtain rfl : p = [] := by simpa using hp
    rw [Extractor.drain_more F.cut_nil]
    exact ⟨rfl, 0, rfl, fun i hi => absurd hi (by simp)⟩
  | cons b bs ih =>
    rw [List.map_cons, List.flatten_cons] at hp
    by_cases hfirst : F.encode b <+: p
    · -- the first encoding has arrived whole
      obtain ⟨p', rfl⟩ := hfirst
      rw [List.prefix_append_right_inj] at hp
      obtain ⟨herr, n, hitems, hn⟩ := ih (fun x hx => hbs x (by simp [hx])) hp
      rw [Extractor.drain_item (cut_encode_append (hbs b (by simp)) p')]
      refine ⟨herr, n + 1, by simp [hitems], fun i hi => ?_⟩
      cases i with
      | zero => simp
      | succ i => simpa [List.prefix_append_right_inj] using hn i (by simpa using hi)
    · -- it has not, and every later encoding ends after it
      obtain ⟨q, hq⟩ := (List.prefix_or_prefix_of_prefix (List.prefix_append _ _) hp).resolve_left hfirst
      have hne : q ≠ [] := by
        rintro rfl
        exact hfirst ⟨[], by rw [← hq]; simp⟩
      rw [Extractor.drain_more (cut_of_unfinished (hbs b (by simp)) hq.symm hne)]
      refine ⟨rfl, 0, rfl, fun i _ => iff_of_false (by omega) fun hpre => hfirst ?_⟩
      rw [List.take_succ_cons, List.map_cons, List.flatten_cons] at hpre
      exact (List.prefix_append _ _).trans hpre

end Framing

/-! ## Streams written item by item -/

section
variable {α β : Type} {encode : β → List α} {bs bs' : List β} {b : β} {out part : List α}

/-- `out` is the encodings of some of the items, in their order. -/
def Whole (encode : β → List α) (bs : List β) (out : List α) : Prop :=
  ∃ cs : List β, cs.Sublist bs ∧ out = (cs.map encode).flatten

/-- `out` is the beginning of such a stream: at most its last item is cut off. -/
def Within (encode : β → List α) (bs : List β) (out : List α) : Prop :=
  ∃ cs : List β, cs.Sublist bs ∧ out <+: (cs.map encode).flatten

theorem Whole.nil : Whole encode bs [] := ⟨[], List.nil_sublist bs, rfl⟩

theorem Whole.mono (h : Whole encode bs out) (hsub : bs.Sublist bs') : Whole encode bs' out := by
  obtain ⟨cs, hcs, rfl⟩ := h
  exact ⟨cs, hcs.trans hsub, rfl⟩

theorem Within.mono (h : Within encode bs out) (hsub : bs.Sublist bs') : Within encode bs' out := by
  obtain ⟨cs, hcs, hpre⟩ := h
  exact ⟨cs, hcs.trans hsub, hpre⟩

theorem Whole.within (h : Whole encode bs out) : Within encode bs out := by
  obtain ⟨cs, hcs, rfl⟩ := h
  exact ⟨cs, hcs, List.prefix_rfl⟩

theorem Whole.append (h : Whole encode bs out) : Whole encode (bs ++ [b]) (out ++ encode b) := by
  obtain ⟨cs, hcs, rfl⟩ := h
  exact ⟨cs ++ [b], hcs.append (List.Sublist.refl [b]), by simp⟩

theorem Whole.append_part (h : Whole encode bs out) (hpart : part <+: encode b) :
    Within encode (bs ++ [b]) (out ++ part) := by
  obtain ⟨cs, hcs, rfl⟩ := h
  refine ⟨cs ++ [b], hcs.append (List.Sublist.refl [b]), ?_⟩
  rw [List.map_append, List.flatten_append, List.prefix_append_right_inj]
  simpa using hpart

end

end StreamExtract
