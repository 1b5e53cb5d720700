import Mathlib

/-!
# Splitting a byte stream into items

A splitter scans a buffer for its first item. Its laws say that what it has found is not changed by
what arrives later, and that what it forgets while it waits would not have mattered. So the items of
a stream do not depend on how the stream is cut into reads.
-/

namespace LatencyArb

/-- What the scan of a buffer gives: nothing yet, with what to keep of the buffer; something to drop;
or an item. In the last two cases with the rest of the buffer. -/
inductive Scan (α φ : Type) where
  | wait (keep : List α)
  | skip (rest : List α)
  | item (item : φ) (rest : List α)

structure Splitter (α φ : Type) where
  scan : List α → Scan α φ
  skip_lt : ∀ {b rest}, scan b = .skip rest → rest.length < b.length
  item_lt : ∀ {b x rest}, scan b = .item x rest → rest.length < b.length
  skip_append : ∀ {b rest}, scan b = .skip rest → ∀ later, scan (b ++ later) = .skip (rest ++ later)
  item_append : ∀ {b x rest}, scan b = .item x rest →
    ∀ later, scan (b ++ later) = .item x (rest ++ later)
  wait_append : ∀ {b keep}, scan b = .wait keep → ∀ later, scan (b ++ later) = scan (keep ++ later)

namespace Splitter

variable {α φ : Type} (S : Splitter α φ)

def splitFuel : Nat → List α → List φ × List α
  | 0, b => ([], b)
  | fuel + 1, b =>
    match S.scan b with
    | .wait keep => ([], keep)
    | .skip rest => splitFuel fuel rest
    | .item x rest => (x :: (splitFuel fuel rest).1, (splitFuel fuel rest).2)

/-- The items in the buffer, and what is kept of it. -/
def split (b : List α) : List φ × List α := S.splitFuel (b.length + 1) b

lemma splitFuel_enough {b : List α} {fuel more : Nat} (h : b.length < fuel) (hmore : b.length < more) :
    S.splitFuel fuel b = S.splitFuel more b := by
  induction fuel generalizing b more with
  | zero => omega
  | succ fuel ih =>
    cases more with
    | zero => omega
    | succ more =>
      simp only [splitFuel]
      split
      · rfl
      · rename_i hscan
        have hlt := S.skip_lt hscan
        exact ih (by omega) (by omega)
      · rename_i hscan
        have hlt := S.item_lt hscan
        rw [ih (by omega : _ < fuel) (by omega : _ < more)]

variable {S} in
lemma split_wait {b keep : List α} (h : S.scan b = .wait keep) : S.split b = ([], keep) := by
  simp only [split, splitFuel, h]

variable {S} in
lemma split_skip {b rest : List α} (h : S.scan b = .skip rest) : S.split b = S.split rest := by
  have hlt := S.skip_lt h
  have hb : S.split b = S.splitFuel b.length rest := by simp only [split, splitFuel, h]
  rw [hb]
  exact S.splitFuel_enough (by omega) (by omega)

variable {S} in
lemma split_item {b rest : List α} {x : φ} (h : S.scan b = .item x rest) :
    S.split b = (x :: (S.split rest).1, (S.split rest).2) := by
  have hlt := S.item_lt h
  have heq : S.splitFuel b.length rest = S.split rest := S.splitFuel_enough (by omega) (by omega)
  have hb : S.split b = (x :: (S.splitFuel b.length rest).1, (S.splitFuel b.length rest).2) := by
    simp only [split, splitFuel, h]
  rw [hb, heq]

variable {S} in
lemma split_congr {a b : List α} (h : S.scan a = S.scan b) : S.split a = S.split b := by
  match hb : S.scan b with
  | .wait keep => rw [split_wait (h.trans hb), split_wait hb]
  | .skip rest => rw [split_skip (h.trans hb), split_skip hb]
  | .item x rest => rw [split_item (h.trans hb), split_item hb]

/-- The rest that is kept stands for the whole of what came before. -/
theorem split_append (b later : List α) :
    S.split (b ++ later) =
      ((S.split b).1 ++ (S.split ((S.split b).2 ++ later)).1,
        (S.split ((S.split b).2 ++ later)).2) := by
  induction hn : b.length using Nat.strong_induction_on generalizing b with
  | _ n ih =>
    match hscan : S.scan b with
    | .wait keep =>
      rw [split_congr (S.wait_append hscan later), split_wait hscan]
      rfl
    | .skip rest =>
      rw [split_skip (S.skip_append hscan later), split_skip hscan]
      exact ih rest.length (hn ▸ S.skip_lt hscan) rest rfl
    | .item x rest =>
      rw [split_item (S.item_append hscan later), split_item hscan,
        ih rest.length (hn ▸ S.item_lt hscan) rest rfl]
      rfl

/-! ## Reads -/

/-- One read: the items of what has been kept and the bytes read, and what is kept now. -/
def feed (s : List φ × List α) (read : List α) : List φ × List α :=
  (s.1 ++ (S.split (s.2 ++ read)).1, (S.split (s.2 ++ read)).2)

/-- There is nothing to find in what a split has kept. -/
lemma split_kept (b : List α) : S.split (S.split b).2 = ([], (S.split b).2) := by
  have happend := S.split_append b []
  rw [List.append_nil, List.append_nil] at happend
  apply Prod.ext
  · have hitems := congrArg Prod.fst happend
    simpa using hitems
  · exact (congrArg Prod.snd happend).symm

/-- The items of a stream do not depend on how it is cut into reads. -/
theorem foldl_feed {b : List α} (h : S.split b = ([], b)) (items : List φ) (reads : List (List α)) :
    reads.foldl S.feed (items, b) =
      (items ++ (S.split (b ++ reads.flatten)).1, (S.split (b ++ reads.flatten)).2) := by
  induction reads generalizing items b with
  | nil => simp [h]
  | cons read reads ih =>
    rw [List.foldl_cons, feed, ih (S.split_kept (b ++ read)), List.flatten_cons, ← List.append_assoc b,
      S.split_append (b ++ read), List.append_assoc]

/-- What a split has kept waits as it is. -/
lemma scan_kept (b : List α) : S.scan (S.split b).2 = .wait (S.split b).2 := by
  induction hn : b.length using Nat.strong_induction_on generalizing b with
  | _ n ih =>
    match hscan : S.scan b with
    | .wait keep =>
      have hkeep := S.wait_append hscan []
      rw [List.append_nil, List.append_nil, hscan] at hkeep
      rw [split_wait hscan]
      exact hkeep.symm
    | .skip rest =>
      rw [split_skip hscan]
      exact ih rest.length (hn ▸ S.skip_lt hscan) rest rfl
    | .item x rest =>
      rw [split_item hscan]
      exact ih rest.length (hn ▸ S.item_lt hscan) rest rfl

/-! ## Where a split stands -/

/-- The split of the stream comes to stand before `c`. -/
inductive Reaches : List α → List α → Prop
  | here (b : List α) : Reaches b b
  | skip {b rest c : List α} (scan : S.scan b = .skip rest) (next : Reaches rest c) : Reaches b c
  | item {b rest c : List α} {x : φ} (scan : S.scan b = .item x rest) (next : Reaches rest c) :
      Reaches b c

/-- The first item that is cut from the buffer, and the rest behind it. -/
inductive First : List α → φ → List α → Prop
  | item {b rest : List α} {x : φ} (scan : S.scan b = .item x rest) : First b x rest
  | skip {b rest tail : List α} {x : φ} (scan : S.scan b = .skip rest) (next : First rest x tail) :
      First b x tail

section

variable {S}

/-- Where a split waits it would also stand in the whole stream. -/
lemma reaches_wait (b : List α) : ∃ c, S.scan c = .wait (S.split b).2 ∧
    ∀ later, S.Reaches (b ++ later) (c ++ later) := by
  induction hn : b.length using Nat.strong_induction_on generalizing b with
  | _ n ih =>
    match hscan : S.scan b with
    | .wait keep =>
      rw [split_wait hscan]
      exact ⟨b, hscan, fun later => .here _⟩
    | .skip rest =>
      obtain ⟨c, hwait, hreach⟩ := ih rest.length (hn ▸ S.skip_lt hscan) rest rfl
      rw [split_skip hscan]
      exact ⟨c, hwait, fun later => .skip (S.skip_append hscan later) (hreach later)⟩
    | .item x rest =>
      obtain ⟨c, hwait, hreach⟩ := ih rest.length (hn ▸ S.item_lt hscan) rest rfl
      rw [split_item hscan]
      exact ⟨c, hwait, fun later => .item (S.item_append hscan later) (hreach later)⟩

/-- A step over the whole stream is one over what is cut off of it, unless that waits. -/
lemma cut_step {d later rest : List α}
    (h : S.scan (d ++ later) = .skip rest ∨ ∃ x, S.scan (d ++ later) = .item x rest) :
    (∃ keep, S.scan d = .wait keep) ∨ ∃ r, rest = r ++ later ∧ (S.split d).2 = (S.split r).2 := by
  match hd : S.scan d with
  | .wait keep => exact .inl ⟨keep, rfl⟩
  | .skip r =>
    right
    rw [S.skip_append hd later] at h
    obtain hskip | ⟨x, hitem⟩ := h
    · exact ⟨r, (Scan.skip.inj hskip).symm, by rw [split_skip hd]⟩
    · cases hitem
  | .item x r =>
    right
    rw [S.item_append hd later] at h
    obtain hskip | ⟨y, hitem⟩ := h
    · cases hskip
    · exact ⟨r, (Scan.item.inj hitem).2.symm, by rw [split_item hd]⟩

variable (S) in
/-- The stream `b` that is cut off in its remainder `c`, where this waits, keeps at least what waits there. -/
def KeepsCut (b c : List α) : Prop :=
  ∃ pre, b = pre ++ c ∧ ∀ d later keep, c = d ++ later → S.scan d = .wait keep →
    ∃ before, S.scan (before ++ d) = .wait (S.split (pre ++ d)).2

lemma KeepsCut.step {b rest c : List α} (h : S.KeepsCut rest c)
    (hscan : S.scan b = .skip rest ∨ ∃ x, S.scan b = .item x rest) (hsuffix : rest <:+ b) : S.KeepsCut b c := by
  obtain ⟨mid, rfl, hcut⟩ := h
  obtain ⟨front, rfl⟩ := hsuffix
  refine ⟨front ++ mid, (List.append_assoc front mid c).symm, ?_⟩
  rintro d later keep rfl hwait
  have hwhole : front ++ (mid ++ (d ++ later)) = front ++ mid ++ d ++ later := by simp
  rw [hwhole] at hscan
  obtain ⟨k, hk⟩ | ⟨r, hr, hsplit⟩ := cut_step hscan
  · exact ⟨front ++ mid, by rw [split_wait hk]; exact hk⟩
  · rw [← List.append_assoc, List.append_left_inj] at hr
    obtain ⟨before, hbefore⟩ := hcut d later keep rfl hwait
    exact ⟨before, by rw [hsplit, ← hr]; exact hbefore⟩

lemma Reaches.keepsCut {b c : List α} (h : S.Reaches b c)
    (hskip : ∀ {b rest}, S.scan b = .skip rest → rest <:+ b)
    (hitem : ∀ {b x rest}, S.scan b = .item x rest → rest <:+ b) : S.KeepsCut b c := by
  induction h with
  | here b =>
    refine ⟨[], rfl, ?_⟩
    intro d later keep _ hwait
    exact ⟨[], by rw [List.nil_append, split_wait hwait]; exact hwait⟩
  | skip scan next ih => exact ih.step (.inl scan) (hskip scan)
  | item scan next ih => exact ih.step (.inr ⟨_, scan⟩) (hitem scan)

lemma First.length_le {b rest : List α} {x : φ} (h : S.First b x rest) : rest.length ≤ b.length := by
  induction h with
  | item scan => exact (S.item_lt scan).le
  | skip scan next ih => exact ih.trans (S.skip_lt scan).le

end

/-! ## Buffers that make no difference -/

/-- Whatever follows, the two buffers lead to the same items. -/
def Agree (b b' : List α) : Prop := ∀ later, (S.split (b ++ later)).1 = (S.split (b' ++ later)).1

variable {S}

lemma Agree.refl (b : List α) : S.Agree b b := fun _ => rfl

/-! ## Streams of messages -/

/-- A message is cut as it is, whatever follows it. -/
def Delimited (S : Splitter α (List α)) (m : List α) : Prop := ∀ rest, S.scan (m ++ rest) = .item m rest

/-- A part of a message waits for the rest of it. -/
lemma Delimited.waits {S : Splitter α (List α)} {b more : List α} (h : S.Delimited (b ++ more))
    (hmore : more ≠ []) : ∃ keep, S.scan b = .wait keep := by
  have hwhole := h []
  rw [List.append_nil] at hwhole
  match hscan : S.scan b with
  | .wait keep => exact ⟨keep, rfl⟩
  | .skip rest =>
    rw [S.skip_append hscan more] at hwhole
    cases hwhole
  | .item x rest =>
    rw [S.item_append hscan more] at hwhole
    obtain ⟨-, hrest⟩ := Scan.item.inj hwhole
    exact absurd (List.append_eq_nil_iff.mp hrest).2 hmore

lemma scan_nil : ∃ keep, S.scan [] = .wait keep := by
  match hscan : S.scan [] with
  | .wait keep => exact ⟨keep, rfl⟩
  | .skip rest => exact absurd (S.skip_lt hscan) (Nat.not_lt_zero _)
  | .item x rest => exact absurd (S.item_lt hscan) (Nat.not_lt_zero _)

/-- Of messages that are sent one behind the other and have arrived in part, those are cut that have arrived
whole. -/
theorem split_arrived {S : Splitter α (List α)} {messages : List (List α)} (h : ∀ m ∈ messages, S.Delimited m)
    {b : List α} (hb : b <+: messages.flatten) : ∃ k ≤ messages.length, (S.split b).1 = messages.take k ∧
      (messages.take k).flatten.length ≤ b.length ∧
        (k < messages.length → b.length < (messages.take (k + 1)).flatten.length) := by
  induction messages generalizing b with
  | nil =>
    obtain rfl : b = [] := List.prefix_nil.mp hb
    obtain ⟨keep, hkeep⟩ := S.scan_nil
    exact ⟨0, le_rfl, by rw [split_wait hkeep]; rfl, by simp, by simp⟩
  | cons m messages ih =>
    have hm := h m List.mem_cons_self
    rw [List.flatten_cons] at hb
    by_cases hwhole : m <+: b
    · obtain ⟨rest, rfl⟩ := hwhole
      obtain ⟨k, hk, hitems, hlow, hhigh⟩ :=
        ih (fun m' hm' => h m' (List.mem_cons_of_mem m hm')) ((List.prefix_append_right_inj m).mp hb)
      refine ⟨k + 1, by rw [List.length_cons]; omega, ?_, ?_, ?_⟩
      · rw [split_item (hm rest), hitems]
        rfl
      · rw [List.take_succ_cons, List.flatten_cons, List.length_append, List.length_append]
        omega
      · intro hlt
        rw [List.length_cons] at hlt
        rw [List.take_succ_cons, List.flatten_cons, List.length_append, List.length_append]
        have hmore := hhigh (by omega)
        omega
    · obtain ⟨more, rfl⟩ := (List.prefix_or_prefix_of_prefix (List.prefix_append m _) hb).resolve_left hwhole
      have hmore : more ≠ [] := by
        rintro rfl
        exact hwhole (by rw [List.append_nil])
      obtain ⟨keep, hkeep⟩ := hm.waits hmore
      refine ⟨0, Nat.zero_le _, by rw [split_wait hkeep]; rfl, by simp, ?_⟩
      intro _
      rw [List.take_succ_cons, List.take_zero, List.flatten_cons, List.flatten_nil, List.append_nil,
        List.length_append]
      have hlength := List.length_pos_iff.mpr hmore
      omega

/-- Where the last message is cut short, those in front of it are cut that have arrived whole. -/
theorem split_cut {S : Splitter α (List α)} {messages : List (List α)} {last part : List α}
    (h : ∀ m ∈ messages ++ [last], S.Delimited m) (hpart : part <+: last) (hless : part ≠ last) {b : List α}
    (hb : b <+: messages.flatten ++ part) : ∃ k, (S.split b).1 = messages.take k ∧
      (messages.take k).flatten.length ≤ b.length ∧
        (k < messages.length → b.length < (messages.take (k + 1)).flatten.length) := by
  have hlength : part.length < last.length := by
    refine lt_of_le_of_ne hpart.length_le ?_
    intro hsame
    exact hless (hpart.eq_of_length hsame)
  have hall : b <+: (messages ++ [last]).flatten := by
    rw [List.flatten_append, List.flatten_singleton]
    exact hb.trans ((List.prefix_append_right_inj _).mpr hpart)
  obtain ⟨k, hk, hitems, hlow, hhigh⟩ := S.split_arrived h hall
  have hshort : b.length < messages.flatten.length + last.length := by
    have hle := hb.length_le
    rw [List.length_append] at hle
    omega
  have hkle : k ≤ messages.length := by
    by_contra hlt
    rw [List.take_of_length_le (by rw [List.length_append, List.length_singleton]; omega), List.flatten_append,
      List.flatten_singleton, List.length_append] at hlow
    omega
  refine ⟨k, ?_, ?_, ?_⟩
  · rw [hitems, List.take_append_of_le_length hkle]
  · rwa [List.take_append_of_le_length hkle] at hlow
  · intro hlt
    have hmore := hhigh (by rw [List.length_append]; omega)
    rwa [List.take_append_of_le_length (by omega)] at hmore

end Splitter

end LatencyArb
