import LatencyArb.Fix.Message
import LatencyArb.Library.Splitter

/-!
# The inbound splitter of the FIX executor (`process_inbound`)

One scan is one round of its loop. Which buffers make no difference to what follows is decided by
their tails: a buffer is live where one of them may still become the frame that is cut next.
-/

namespace LatencyArb

namespace Fix

/-- `8=FIX.4.4` and its SOH. -/
def header : Bytes := ascii "8=FIX.4.4" ++ [soh]

def lengthTag : Bytes := ascii "9="

/-- A BodyLength that is not skipped. -/
def validLength (text : Bytes) : Bool := isDigits text && decide (atol text ≤ kMaxMsgLen)

/-- The round of the loop on a buffer that starts with the header. -/
def scanFrame (b : Bytes) : Scan UInt8 Bytes :=
  match findSub lengthTag b with
  | none => .wait b
  | some p9 =>
    match findSub [soh] (b.drop (p9 + 2)) with
    | none => .wait b
    | some n =>
      let blen := (b.drop (p9 + 2)).take n
      if !validLength blen then .skip (b.drop 1)
      else
        let total := p9 + 2 + n + 1 + atol blen + 7
        if b.length < total then .wait b else .item (b.take total) (b.drop total)

/-- Without a header the last 16 bytes are kept. -/
def scan (b : Bytes) : Scan UInt8 Bytes :=
  match findSub header b with
  | none => .wait (b.drop (b.length - 16))
  | some h => scanFrame (b.drop h)

lemma header_length : header.length = 10 := by decide

lemma soh_mem_header : soh ∈ header := by decide

/-! ## The laws of the splitter -/

variable {b : Bytes}

/-- The field of the BodyLength tag that is found. -/
lemma lengthTag_fits {p9 : Nat} (h : findSub lengthTag b = some p9) : p9 + 2 ≤ b.length :=
  (findSub_spec h).2.1

/-- What a round finds is not changed by what follows. -/
lemma scanFrame_append (later : Bytes) {p9 n : Nat} (hp : findSub lengthTag b = some p9)
    (hn : findSub [soh] (b.drop (p9 + 2)) = some n) :
    findSub lengthTag (b ++ later) = some p9 ∧
      findSub [soh] ((b ++ later).drop (p9 + 2)) = some n ∧
      ((b ++ later).drop (p9 + 2)).take n = (b.drop (p9 + 2)).take n := by
  have hfits := lengthTag_fits hp
  have hdrop : (b ++ later).drop (p9 + 2) = b.drop (p9 + 2) ++ later :=
    List.drop_append_of_le_length hfits
  have hle := (findSub_spec hn).2.1
  refine ⟨findSub_append hp later, ?_, ?_⟩
  · rw [hdrop]
    exact findSub_append hn later
  · rw [hdrop, List.take_append_of_le_length (by omega)]

lemma scanFrame_skip {rest : Bytes} (h : scanFrame b = .skip rest) :
    rest = b.drop 1 ∧ b ≠ [] ∧ ∀ later, scanFrame (b ++ later) = .skip (rest ++ later) := by
  unfold scanFrame at h
  split at h
  · cases h
  · rename_i p9 hp
    split at h
    · cases h
    · rename_i n hn
      simp only at h
      split at h
      · rename_i hbad
        cases h
        have hfits := lengthTag_fits hp
        have hne : b ≠ [] := by
          rintro rfl
          simp at hfits
        refine ⟨rfl, hne, ?_⟩
        intro later
        obtain ⟨hp', hn', htext⟩ := scanFrame_append later hp hn
        have hdrop : (b ++ later).drop 1 = b.drop 1 ++ later :=
          List.drop_append_of_le_length (by omega)
        simp only [scanFrame, hp', hn', htext, hbad, if_true, hdrop]
      · split at h <;> cases h

lemma scanFrame_item {x rest : Bytes} (h : scanFrame b = .item x rest) :
    rest.length < b.length ∧ ∀ later, scanFrame (b ++ later) = .item x (rest ++ later) := by
  unfold scanFrame at h
  split at h
  · cases h
  · rename_i p9 hp
    split at h
    · cases h
    · rename_i n hn
      simp only at h
      split at h
      · cases h
      · rename_i hgood
        split at h
        · cases h
        · rename_i hfull
          cases h
          constructor
          · rw [List.length_drop]
            omega
          · intro later
            obtain ⟨hp', hn', htext⟩ := scanFrame_append later hp hn
            simp only [scanFrame, hp', hn', htext, hgood, if_false, Bool.false_eq_true,
              List.length_append]
            rw [if_neg (by omega), List.take_append_of_le_length (by omega),
              List.drop_append_of_le_length (by omega)]

lemma scanFrame_wait {keep : Bytes} (h : scanFrame b = .wait keep) : keep = b := by
  unfold scanFrame at h
  split at h
  · cases h
    rfl
  · split at h
    · cases h
      rfl
    · simp only at h
      split at h
      · cases h
      · split at h <;> cases h
        rfl

lemma scan_append {h : Nat} (hh : findSub header b = some h) (later : Bytes) :
    scan (b ++ later) = scanFrame (b.drop h ++ later) := by
  have hle := (findSub_spec hh).2.1
  simp only [scan, findSub_append hh later]
  rw [List.drop_append_of_le_length (by omega)]

lemma scan_of_header (h : header <+: b) : scan b = scanFrame b := by
  simp [scan, findSub_start h]

/-- A header that is only completed by what follows starts in the last bytes that are kept. -/
lemma findSub_header_tail (h : findSub header b = none) (later : Bytes) :
    findSub header (b ++ later) =
      (findSub header (b.drop (b.length - 16) ++ later)).map (· + (b.length - 16)) := by
  rw [← List.drop_append_of_le_length (by omega : b.length - 16 ≤ b.length)]
  apply findSub_drop
  · intro j hj hp
    have hlen := header_length
    exact not_prefix_of_findSub_none h j (prefix_of_append hp (by omega))
  · rw [List.length_append]
    omega

lemma scan_wait_append {keep : Bytes} (h : scan b = .wait keep) (later : Bytes) :
    scan (b ++ later) = scan (keep ++ later) := by
  match hh : findSub header b with
  | none =>
    simp only [scan, hh, Scan.wait.injEq] at h
    subst h
    have htail := findSub_header_tail hh later
    have hdrop : b.drop (b.length - 16) ++ later = (b ++ later).drop (b.length - 16) :=
      (List.drop_append_of_le_length (by omega)).symm
    match hl : findSub header (b.drop (b.length - 16) ++ later) with
    | none =>
      rw [hl] at htail
      simp only [scan, hl, htail, Option.map_none, Scan.wait.injEq]
      rw [hdrop, List.drop_drop, List.length_drop, List.length_append]
      congr 1
      omega
    | some i =>
      rw [hl] at htail
      simp only [scan, hl, htail, Option.map_some]
      rw [hdrop, List.drop_drop, Nat.add_comm]
  | some i =>
    simp only [scan, hh] at h
    rw [scanFrame_wait h, scan_append hh later, scan_of_header]
    exact (findSub_spec hh).1.trans (List.prefix_append _ _)

def splitter : Splitter UInt8 Bytes where
  scan := scan
  skip_lt := by
    intro b rest h
    unfold scan at h
    split at h
    · cases h
    · obtain ⟨rfl, hne, -⟩ := scanFrame_skip h
      have hpos := List.length_pos_of_ne_nil hne
      simp only [List.length_drop] at hpos ⊢
      omega
  item_lt := by
    intro b x rest h
    unfold scan at h
    split at h
    · cases h
    · have hlt := (scanFrame_item h).1
      rw [List.length_drop] at hlt
      omega
  skip_append := by
    intro b rest h later
    unfold scan at h
    split at h
    · cases h
    · rename_i hh
      rw [scan_append hh]
      exact (scanFrame_skip h).2.2 later
  item_append := by
    intro b x rest h later
    unfold scan at h
    split at h
    · cases h
    · rename_i hh
      rw [scan_append hh]
      exact (scanFrame_item h).2 later
  wait_append := by
    intro b keep h later
    exact scan_wait_append h later

end Fix

end LatencyArb
