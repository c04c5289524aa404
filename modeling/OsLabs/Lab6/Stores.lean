import OsLabs.Core.Lines
import OsLabs.Lab6.SystemVChat

/-!
# Where the System V Server Writes

The server writes into four arrays of fixed size while it handles a message:
the message itself, which gets a terminator, the path and the text that `sscanf`
takes from it, and the texts that `snprintf` formats.

Two of the writes are not what the array is for. The terminator is put behind
what is received, and that is behind the array if as much is received as fits.
And the text that is sent on is formatted with a limit of `MSG_SIZE + 18` bytes
into an array of `MSG_SIZE`. It is longer than what was received, `From ` and
`: ` being more than `MSG `, so it need not fit even if the message did. The
POSIX server has a byte more in the one array and eighteen more in the other.

`stores` lists what is written for a message. It follows the branches of
`handle`.

## Main definitions

* `Store`, `Store.Inside`: A write to an array, and that it stays inside.
* `initStores`, `msgStores`, `stores`: What is written for a message.
* `Carries`: The parts of a message that `sscanf` takes from a `MSG`.
* `Overlong`: What is to be sent on does not fit.

## Theorems

* `scanMsg_eq_some_iff`: What `sscanf` takes from a message.
* `initStores_inside`, `msgStores_inside_iff`: The writes of the two branches.
* `stores_inside_iff`: When all of them stay inside.
* `stores_outside`: Two messages for which they do not.
-/

namespace OsLabs

namespace Lab6

namespace SysV

/-- Elements `first` to `first + count - 1` of an array of `size` elements are
    written. -/
structure Store where
  size : Nat
  first : Nat
  count : Nat
  deriving DecidableEq

def Store.Inside (st : Store) : Prop := st.first + st.count ≤ st.size

instance (st : Store) : Decidable st.Inside := inferInstanceAs (Decidable (_ ≤ _))

/-- A string with its terminator is written into an array. -/
def stringStore (size : Nat) (text : List UInt8) : Store where
  size := size
  first := 0
  count := text.length + 1

/-- The branch for `INIT`: `path`, the slot and the answer. -/
def initStores (s : State) (message : List UInt8) (o : Outcome) : List Store :=
  match scanWord 63 (message.drop 5) with
  | none => []
  | some (path, _) => stringStore 64 path ::
    match s.freeSlot with
    | none => []
    | some slot =>
      if o.ftok = -1 then []
      else if o.msgget = -1 then []
      else [⟨MAX_CLIENTS, slot, 1⟩,
        stringStore MSG_SIZE (snprintf MSG_SIZE (bytes "ID " ++ numeral slot))]

/-- The branch for `MSG`: `text`, `broadcast` and the copies of it. `text` is
    written only if there is a number before it. -/
def msgStores (s : State) (message : List UInt8) (o : Outcome) : List Store :=
  match scanMsg o.overflowed message with
  | none => []
  | some (from_, text) =>
    stringStore MSG_SIZE text ::
      stringStore MSG_SIZE (snprintf (MSG_SIZE + 18)
        (bytes "From " ++ intNumeral from_ ++ bytes ": " ++ text)) ::
      -- `strncpy` fills the whole array.
      (broadcast s from_ text o).map fun _ => ⟨MSG_SIZE, 0, MSG_SIZE⟩

/-- What `msgrcv` and the server write for a message. -/
def stores (s : State) (text : List UInt8) (o : Outcome) : List Store :=
  ⟨MSG_SIZE, 0, text.length⟩ :: ⟨MSG_SIZE, text.length, 1⟩ ::
    if (bytes "INIT ").isPrefixOf (cstr text) then initStores s (cstr text) o
    else if (bytes "MSG ").isPrefixOf (cstr text) then msgStores s (cstr text) o
    else []

/-- The message is `MSG`, a number and a line, each after white space if there
    is any. -/
def Carries (message sign digits line : List UInt8) : Prop :=
  ∃ body rest blanks tail, message = bytes "MSG " ++ body ∧ IsNumber body sign digits rest ∧
    rest = blanks ++ (line ++ tail) ∧ (∀ c ∈ blanks, isBlank c = true) ∧
    line.head?.any isBlank = false ∧ line ≠ [] ∧ 10 ∉ line ∧ (tail = [] ∨ tail.head? = some 10)

/-- The number and the line of the message, with the eight characters around
    them and the terminator, are more than `MSG_SIZE` bytes. -/
def Overlong (overflowed : Int) (text : List UInt8) : Prop :=
  ∃ sign digits line, Carries (cstr text) sign digits line ∧ MSG_SIZE < 8 +
    (intNumeral (storedInt overflowed (signedNumeral sign digits))).length + line.length

section Scanning

variable {message rest line sign digits : List UInt8} {overflowed n : Int}

/-- The line behind a number is what follows the white space, up to a
    newline. -/
theorem scanLine_blanks_iff {width : Nat} (hwidth : rest.length ≤ width) :
    (∃ tail, scanLine width (rest.dropWhile isBlank) = some (line, tail)) ↔
      ∃ blanks tail, rest = blanks ++ (line ++ tail) ∧ (∀ c ∈ blanks, isBlank c = true) ∧
        line.head?.any isBlank = false ∧ line ≠ [] ∧ 10 ∉ line ∧
        (tail = [] ∨ tail.head? = some 10) := by
  constructor
  · rintro ⟨tail, hscan⟩
    rcases firstLine_cases 10 (rest.dropWhile isBlank) with ⟨first, tail', hno, htake, hs, htail⟩
    have hfirst : first.length ≤ width := by
      have hdrop := List.length_dropWhile_le isBlank rest
      rw [hs, List.length_append] at hdrop
      omega
    unfold scanLine at hscan
    simp only [htake, List.take_of_length_le hfirst] at hscan
    split_ifs at hscan with hnil
    rw [Option.some.injEq, Prod.mk.injEq] at hscan
    rcases hscan with ⟨rfl, -⟩
    refine ⟨rest.takeWhile isBlank, tail', ?_, fun c hc => List.mem_takeWhile_imp hc, ?_, hnil, hno,
      ?_⟩
    · rw [← hs, List.takeWhile_append_dropWhile]
    · -- What is left after the white space does not begin with any.
      rcases List.exists_cons_of_ne_nil hnil with ⟨c, line', rfl⟩
      have hhead := List.head?_dropWhile_not isBlank rest
      rw [hs] at hhead
      simpa using hhead
    · rcases htail with rfl | ⟨t, rfl⟩
      · exact Or.inl rfl
      · exact Or.inr rfl
  · rintro ⟨blanks, tail, rfl, hblanks, hhead, hne, hno, htail⟩
    rcases List.exists_cons_of_ne_nil hne with ⟨c, line', rfl⟩
    have hdrop : (blanks ++ (c :: line' ++ tail)).dropWhile isBlank = c :: line' ++ tail := by
      rw [List.dropWhile_append_of_pos hblanks]
      exact dropWhile_of_head rfl (by simpa using hhead)
    have htake : (c :: line' ++ tail).takeWhile (· ≠ 10) = c :: line' := by
      have hline : ∀ b ∈ c :: line', decide (b ≠ 10) = true := by
        intro b hb
        refine decide_eq_true ?_
        rintro rfl
        exact hno hb
      rw [List.takeWhile_append_of_pos hline]
      -- The tail begins with the newline, if there is one.
      have hstop : tail.takeWhile (fun b => decide (b ≠ 10)) = [] := by
        rcases htail with rfl | htail
        · rfl
        · rcases List.head?_eq_some_iff.mp htail with ⟨t, rfl⟩
          rfl
      rw [hstop, List.append_nil]
    have hlen : (c :: line').length ≤ width := by
      rw [List.length_append, List.length_append] at hwidth
      omega
    refine ⟨(c :: line' ++ tail).drop (c :: line').length, ?_⟩
    unfold scanLine
    simp only [hdrop, htake, List.take_of_length_le hlen]
    exact if_neg (List.cons_ne_nil c line')

/-- What `sscanf` takes from a message that begins with `MSG`. -/
theorem scanMsg_eq_some_iff (hmsg : (bytes "MSG ").isPrefixOf message = true) :
    scanMsg overflowed message = some (n, line) ↔
      ∃ sign digits, Carries message sign digits line ∧
        n = storedInt overflowed (signedNumeral sign digits) := by
  rcases List.isPrefixOf_iff_prefix.mp hmsg with ⟨body, rfl⟩
  have hbody : (bytes "MSG " ++ body).drop 4 = body := rfl
  have hlen : body.length ≤ (bytes "MSG " ++ body).length := by
    rw [List.length_append]
    exact Nat.le_add_left _ _
  rw [scanMsg, hbody, Option.bind_eq_some_iff]
  constructor
  · rintro ⟨⟨n', rest⟩, hnumber, hline⟩
    rcases Option.map_eq_some_iff.mp hline with ⟨⟨line', tail⟩, hscan, heq⟩
    rw [Prod.mk.injEq] at heq
    rcases heq with ⟨rfl, rfl⟩
    rcases isNumber_of_scanInt overflowed hnumber with ⟨sign, digits, hn, hval⟩
    -- The rest is part of the body, so that the line is not cut.
    have hrest : rest.length ≤ body.length := by
      rcases hn.text with ⟨blanks, _, rfl⟩
      simp only [List.length_append]
      omega
    rcases (scanLine_blanks_iff (Nat.le_trans hrest hlen)).mp ⟨tail, hscan⟩ with
      ⟨blanks, tail', hparts⟩
    exact ⟨sign, digits, ⟨body, rest, blanks, tail', rfl, hn, hparts⟩, hval⟩
  · rintro ⟨sign, digits, ⟨body', rest, blanks, tail, hsame, hn, hparts⟩, rfl⟩
    rw [← List.append_cancel_left hsame] at hn
    have hrest : rest.length ≤ body.length := by
      rcases hn.text with ⟨blanks, _, rfl⟩
      simp only [List.length_append]
      omega
    rcases (scanLine_blanks_iff (Nat.le_trans hrest hlen)).mpr ⟨blanks, tail, hparts⟩ with
      ⟨tail', hscan⟩
    refine ⟨_, scanInt_of_isNumber overflowed hn, ?_⟩
    simp only [hscan, Option.map_some]

end Scanning

section Bounds

variable {s : State} {text : List UInt8} {o : Outcome}

theorem length_snprintf_lt {size : Nat} (hpos : 0 < size) (t : List UInt8) :
    (snprintf size t).length < size := by
  rw [snprintf, List.length_take]
  omega

/-- `%63s` fits its array, and so does the answer. -/
theorem initStores_inside (s : State) (message : List UInt8) (o : Outcome) :
    ∀ st ∈ initStores s message o, st.Inside := by
  unfold initStores
  cases hw : scanWord 63 (message.drop 5) with
  | none => exact List.forall_mem_nil _
  | some w =>
      have hpath : w.1.length ≤ 63 := by
        unfold scanWord at hw
        simp only [] at hw
        split_ifs at hw
        rw [← Option.some.inj hw]
        exact List.length_take_le _ _
      rw [List.forall_mem_cons]
      refine ⟨?_, ?_⟩
      · change 0 + (w.1.length + 1) ≤ 64
        omega
      · cases s.freeSlot with
        | none => exact List.forall_mem_nil _
        | some slot =>
            simp only []
            split_ifs
            · exact List.forall_mem_nil _
            · exact List.forall_mem_nil _
            · have hanswer := length_snprintf_lt (by decide : 0 < MSG_SIZE) (bytes "ID " ++ numeral slot)
              rw [List.forall_mem_cons, List.forall_mem_singleton]
              refine ⟨slot.isLt, ?_⟩
              change 0 + (_ + 1) ≤ MSG_SIZE
              omega

/-- The text always fits, being part of the message. What is formatted from it
    may not. -/
theorem msgStores_inside_iff (s : State) (o : Outcome)
    (hmsg : (bytes "MSG ").isPrefixOf (cstr text) = true) (hlen : text.length < MSG_SIZE) :
    (∀ st ∈ msgStores s (cstr text) o, st.Inside) ↔ ¬ Overlong o.overflowed text := by
  have hsize : MSG_SIZE = 1024 := rfl
  unfold msgStores
  cases hscan : scanMsg o.overflowed (cstr text) with
  | none =>
      refine iff_of_true (List.forall_mem_nil _) ?_
      rintro ⟨sign, digits, line, hcarries, _⟩
      rw [(scanMsg_eq_some_iff hmsg).mpr ⟨sign, digits, hcarries, rfl⟩] at hscan
      cases hscan
  | some p =>
      rcases p with ⟨n, line⟩
      rcases (scanMsg_eq_some_iff hmsg).mp hscan with ⟨sign, digits, hcarries, hval⟩
      -- The line is shorter than the message it was found in.
      have hline : line.length + 1 ≤ MSG_SIZE := by
        rcases hcarries with ⟨body, rest, blanks, tail, hmessage, hn, hrest, _⟩
        rcases hn.text with ⟨blanks', _, hbody⟩
        have hcstr : (cstr text).length ≤ text.length := (List.takeWhile_prefix _).length_le
        rw [hmessage, hbody, hrest] at hcstr
        simp only [List.length_append] at hcstr
        omega
      have hformatted : (bytes "From " ++ intNumeral n ++ bytes ": " ++ line).length
          = 7 + (intNumeral n).length + line.length := by
        have hfrom : (bytes "From ").length = 5 := rfl
        have hcolon : (bytes ": ").length = 2 := rfl
        rw [List.length_append, List.length_append, List.length_append, hfrom, hcolon]
        omega
      have hcopies : ∀ st ∈ (broadcast s n line o).map fun _ => (⟨MSG_SIZE, 0, MSG_SIZE⟩ : Store),
          st.Inside := by
        intro st hst
        rcases List.mem_map.mp hst with ⟨_, _, rfl⟩
        exact Nat.le_of_eq (Nat.zero_add _)
      have hoverlong : Overlong o.overflowed text ↔
          MSG_SIZE < 8 + (intNumeral n).length + line.length := by
        refine ⟨?_, fun h => ⟨sign, digits, line, hcarries, hval ▸ h⟩⟩
        rintro ⟨sign', digits', line', hcarries', hlong⟩
        have hsame : scanMsg o.overflowed (cstr text) = some (_, line') :=
          (scanMsg_eq_some_iff hmsg).mpr ⟨sign', digits', hcarries', rfl⟩
        rw [hscan, Option.some.injEq, Prod.mk.injEq] at hsame
        rw [hsame.1, hsame.2]
        exact hlong
      rw [List.forall_mem_cons, List.forall_mem_cons, and_iff_left hcopies, hoverlong]
      simp only [Store.Inside, stringStore, snprintf, List.length_take, hformatted]
      omega

end Bounds

/-- Everything the server writes for a message stays inside its array exactly
    if the message leaves room for a terminator and what is sent on of it is not
    too long, whatever the table holds and the system calls do. -/
theorem stores_inside_iff (s : State) (text : List UInt8) (o : Outcome) :
    (∀ st ∈ stores s text o, st.Inside) ↔
      text.length < MSG_SIZE ∧ ¬ Overlong o.overflowed text := by
  have hno : (bytes "MSG ").isPrefixOf (cstr text) = false → ¬ Overlong o.overflowed text := by
    rintro hmsg ⟨_, _, _, ⟨body, _, _, _, hmessage, _⟩, _⟩
    rw [hmessage, List.isPrefixOf_iff_prefix.mpr (List.prefix_append _ body)] at hmsg
    cases hmsg
  unfold stores
  rw [List.forall_mem_cons, List.forall_mem_cons]
  by_cases hlen : text.length < MSG_SIZE
  · have hfirst : (⟨MSG_SIZE, 0, text.length⟩ : Store).Inside := by
      change 0 + text.length ≤ MSG_SIZE
      omega
    have hend : (⟨MSG_SIZE, text.length, 1⟩ : Store).Inside := hlen
    rw [and_iff_right hfirst, and_iff_right hend, and_iff_right hlen]
    split_ifs with hinit hmsg
    · refine iff_of_true (initStores_inside s (cstr text) o) (hno ?_)
      -- No message begins with both words.
      rcases List.isPrefixOf_iff_prefix.mp hinit with ⟨body, hbody⟩
      rw [← hbody]
      rfl
    · exact msgStores_inside_iff s o hmsg hlen
    · exact iff_of_true (List.forall_mem_nil _) (hno (Bool.eq_false_iff.mpr hmsg))
  · exact iff_of_false (fun h => hlen h.2.1) fun h => hlen h.1

/-- A message that fills its array, and one that is formatted to more than was
    received. -/
theorem stores_outside :
    (∃ text o, text.length ≤ MSG_SIZE ∧ ¬ ∀ st ∈ stores start text o, st.Inside) ∧
    ∃ text o, text.length < MSG_SIZE ∧ ¬ ∀ st ∈ stores start text o, st.Inside := by
  have hlast : ¬ (⟨MSG_SIZE, MSG_SIZE, 1⟩ : Store).Inside := by decide
  refine ⟨⟨List.replicate MSG_SIZE 97, ⟨0, 5, 6, fun _ _ => true⟩,
      Nat.le_of_eq List.length_replicate, fun h => hlast ?_⟩,
    bytes "MSG 0" ++ List.replicate 1018 97, ⟨0, 5, 6, fun _ _ => true⟩, by decide +kernel,
    by decide +kernel⟩
  have hend := h ⟨MSG_SIZE, (List.replicate MSG_SIZE (97 : UInt8)).length, 1⟩
    (List.mem_cons_of_mem _ List.mem_cons_self)
  rw [List.length_replicate] at hend
  exact hend

end SysV

end Lab6

end OsLabs
