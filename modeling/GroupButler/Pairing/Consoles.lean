import GroupButler.Pairing.Picture

/-!
# Two ways to drive the wizard

The console runs the wizard itself, or asks the pairing service that runs next to Hermes. Both report the same
code and, but for two moments, the same state, as long as the wizard prints its code without colour: the service
does not look behind an escape.
-/

namespace GroupButler.Pairing.TerminalQr
open Foundation

/-- What the console shows of a pairing; when it started is left out. -/
structure HermesPairingStatus where
  state : PairingState
  qr : Option (List Char)
  message : Option String
  deriving DecidableEq, Repr

section
variable (deflateSync : List UInt8 → List UInt8)

/-- `statusOf`, for a log and a wizard that is running or not. -/
def statusOf (output : List Char) (running : Bool) : Except Fault HermesPairingStatus :=
  let message := lastLine output
  if reportsPaired output then .ok ⟨.paired, none, message⟩
  else
    (readQr deflateSync output).map fun qr =>
      if qr.isSome ∧ running then
        ⟨.awaitingScan, qr, some "Open WhatsApp on your phone, then Settings → Linked Devices → Link a Device."⟩
      else if output.contains '✗' ∨ (!running ∧ output ≠ []) then
        ⟨.failed, none, some (message.getD "The pairing command did not finish.")⟩
      else ⟨.starting, none, message⟩

/-- `callService`, given what the service answers. -/
def callService (body : Snapshot) : Except Fault (Option HermesPairingStatus) :=
  if body.state = .idle then .ok none
  else
    match body.qr.filter fun qr => qr ≠ [] with
    | none => .ok (some ⟨body.state, none, body.message⟩)
    | some qr => (qrDataUrlFromTerminal deflateSync qr).map fun image => some ⟨body.state, image, body.message⟩

end

/-! ### Lines of a code -/

/-- What the console takes for a code: from the newest marker on, the lines of blocks behind their colours. -/
def codeLines (output : List Char) : List (List Char) :=
  (((fromLast id qrMarker output).getD []).splitOn '\n').filter fun line => isQrLine (bare line)

def Uncoloured (output : List Char) : Prop := ∀ line ∈ codeLines output, escape ∉ line

def Coloured (output : List Char) : Prop := ∀ line ∈ codeLines output, escape ∈ line

instance (output : List Char) : Decidable (Uncoloured output) := inferInstanceAs (Decidable (∀ line ∈ _, escape ∉ line))

theorem stripAnsi_uncoloured {line : List Char} (plain : escape ∉ line) : stripAnsi line = line := by
  induction line with
  | nil => rfl
  | cons c line ih =>
    rw [stripAnsi_plain fun same => plain (same ▸ List.mem_cons_self), ih fun member => plain (List.mem_cons_of_mem _ member)]

theorem escape_no_glyph : (modulesByGlyph escape).isSome = false := by decide

/-- The service takes a line for a code's where the console does and the line has no escape. -/
theorem serviceLine (line : List Char) :
    isQrLine (line.filter (· != '\r')) = true ↔ isQrLine (bare line) = true ∧ escape ∉ line := by
  constructor
  · intro code
    have plain : escape ∉ line := by
      intro member
      have glyph := isQrLine_glyphs code escape (List.mem_filter.mpr ⟨member, by decide⟩)
      rw [escape_no_glyph] at glyph
      cases glyph
    refine ⟨?_, plain⟩
    rw [bare, stripAnsi_uncoloured plain]
    exact code
  · intro code
    have same := code.1
    rw [bare, stripAnsi_uncoloured code.2] at same
    exact same

theorem filter_serviceLines {lines : List (List Char)} (plain : ∀ line ∈ lines, isQrLine (bare line) = true → escape ∉ line) :
    (lines.map fun line => line.filter (· != '\r')).filter isQrLine = (lines.map bare).filter isQrLine := by
  induction lines with
  | nil => rfl
  | cons line lines ih =>
    have rest := ih fun other member => plain other (List.mem_cons_of_mem _ member)
    rw [List.map_cons, List.map_cons, List.filter_cons, List.filter_cons, rest]
    by_cases code : isQrLine (bare line) = true
    · have colourless := plain line List.mem_cons_self code
      have same : bare line = line.filter (· != '\r') := by rw [bare, stripAnsi_uncoloured colourless]
      rw [same]
    · have other : ¬ isQrLine (line.filter (· != '\r')) = true := fun service => code ((serviceLine line).mp service).1
      rw [if_neg code, if_neg other]

/-- The lines the console reads a code from. -/
theorem linesOf_splitOn (text : List Char) : linesOf text = (text.splitOn '\n').map bare := by
  have whole := linesOf_intercalate (List.splitOn_ne_nil '\n' text) (not_mem_splitOn '\n' text)
  rw [List.intercalate_splitOn] at whole
  exact whole

theorem qrLines_eq {output found : List Char} (newest : fromLast id qrMarker output = some found) (plain : Uncoloured output) :
    qrLines id output = (linesOf found).filter isQrLine := by
  have plain : ∀ line ∈ found.splitOn '\n', isQrLine (bare line) = true → escape ∉ line := by
    intro line member code
    apply plain line
    rw [codeLines, newest, Option.getD_some]
    exact List.mem_filter.mpr ⟨member, code⟩
  have service : qrLines id output = ((found.splitOn '\n').map fun line => line.filter (· != '\r')).filter isQrLine := by
    rw [qrLines, newest]
    dsimp only
    congr 1
    funext line
    exact (isQrLine_eq line).symm
  rw [service, linesOf_splitOn, filter_serviceLines plain]

/-- A block of code lines is read as the lines it is made of. -/
theorem linesOf_block {lines : List (List Char)} (some_ : lines ≠ []) (code : ∀ line ∈ lines, isQrLine line = true) :
    linesOf (['\n'].intercalate lines) = lines := by
  have glyphs (c : Char) (other : (modulesByGlyph c).isSome = false) : ∀ line ∈ lines, c ∉ line := by
    intro line member inside
    rw [isQrLine_glyphs (code line member) c inside] at other
    cases other
  rw [linesOf_intercalate some_ (glyphs '\n' (by decide))]
  conv_rhs => rw [← List.map_id lines]
  apply List.map_congr_left
  intro line member
  show bare line = line
  rw [bare, stripAnsi_uncoloured (glyphs escape (by decide) line member)]
  apply List.filter_eq_self.mpr
  intro c inside
  rw [bne_iff_ne]
  intro carriage
  exact glyphs '\r' (by decide) line member (carriage ▸ inside)

theorem modules_of_lines {text other : List Char} (same : (linesOf text).filter isQrLine = (linesOf other).filter isQrLine) :
    modulesFromTerminalQr text = modulesFromTerminalQr other := by
  rw [modulesFromTerminalQr, modulesFromTerminalQr, same]

theorem modules_none {text : List Char} (none_ : (linesOf text).filter isQrLine = []) : modulesFromTerminalQr text = none := by
  rw [modulesFromTerminalQr, none_]
  rfl

section
variable {deflateSync : List UInt8 → List UInt8} {output : List Char}

/-- The service's block is the picture the console would have read itself. -/
theorem block_picture (plain : Uncoloured output) :
    readQr deflateSync output = (latestQr output).elim (.ok none) (qrDataUrlFromTerminal deflateSync) := by
  rw [readQr, latestQr]
  cases newest : fromLast id qrMarker output with
  | none =>
    have none_ : qrLines id output = [] := by rw [qrLines, newest]
    rw [none_, if_pos rfl]
    rfl
  | some found =>
    have lines := qrLines_eq newest plain
    dsimp only
    by_cases none_ : qrLines id output = []
    · rw [if_pos none_, Option.elim_none, qrDataUrlFromTerminal, modules_none (lines ▸ none_)]
    · have code : ∀ line ∈ qrLines id output, isQrLine line = true := by
        intro line member
        rw [lines] at member
        exact (List.mem_filter.mp member).2
      rw [if_neg none_, Option.elim_some, qrDataUrlFromTerminal, qrDataUrlFromTerminal]
      have same : modulesFromTerminalQr (['\n'].intercalate (qrLines id output)) = modulesFromTerminalQr found := by
        apply modules_of_lines
        rw [linesOf_block none_ code, List.filter_eq_self.mpr code, lines]
      rw [same]

/-- A coloured code is no code to the service. -/
theorem latestQr_coloured (coloured : Coloured output) : latestQr output = none := by
  have none_ : qrLines id output = [] := by
    rw [qrLines]
    cases newest : fromLast id qrMarker output with
    | none => rfl
    | some found =>
      dsimp only
      apply List.filter_eq_nil_iff.mpr
      intro bared member code
      obtain ⟨line, inside, rfl⟩ := List.mem_map.mp member
      obtain ⟨shown, plain⟩ := (serviceLine line).mp ((isQrLine_eq _).trans code)
      apply plain
      apply coloured line
      rw [codeLines, newest, Option.getD_some]
      exact List.mem_filter.mpr ⟨inside, shown⟩
  rw [latestQr, if_pos none_]

theorem latestQr_some {qr : List Char} (found : latestQr output = some qr) : qr ≠ [] := by
  rw [latestQr] at found
  split at found
  · cases found
  · rename_i some_
    obtain rfl := Option.some.inj found
    obtain ⟨line, lines, shape⟩ := List.exists_cons_of_ne_nil some_
    have member : line ∈ qrLines id output := by
      rw [shape]
      exact List.mem_cons_self
    have code : Pairing.isQrLine id line = true := by
      unfold qrLines at member
      split at member
      · cases member
      · exact (List.mem_filter.mp member).2
    have long : 30 ≤ line.length := by
      rw [Pairing.isQrLine, Bool.and_eq_true, decide_eq_true_eq] at code
      exact code.1
    intro empty
    rw [shape] at empty
    have first : line <+: ['\n'].intercalate (line :: lines) := by
      cases lines with
      | nil => rw [List.intercalate_singleton]
      | cons next lines =>
        rw [intercalate_cons line (List.cons_ne_nil _ _)]
        exact List.prefix_append _ _
    rw [empty] at first
    have short := first.length_le
    rw [List.length_nil] at short
    omega

/-- What the service answers with, and when. -/
theorem snapshot_cases (s : Session) (running : Bool) :
    (reportsPaired s.output = true ∧ snapshot s running = ⟨.paired, none, lastLine s.output, running⟩) ∨
    (reportsPaired s.output = false ∧ running = true ∧
      ∃ qr, latestQr s.output = some qr ∧ snapshot s running = ⟨.awaitingScan, some qr, some "Scan the QR", running⟩) ∨
    (reportsPaired s.output = false ∧ ¬ (running = true ∧ (latestQr s.output).isSome) ∧
      (s.output.contains '✗' = true ∨ running = false) ∧
      snapshot s running = ⟨.failed, none, some ((lastLine s.output).getD "the pairing command did not finish"), running⟩) ∨
    (reportsPaired s.output = false ∧ running = true ∧ latestQr s.output = none ∧ s.output.contains '✗' = false ∧
      snapshot s running = ⟨.starting, none, lastLine s.output, running⟩) := by
  unfold snapshot
  cases paired : reportsPaired s.output
  · cases running
    · simp
    · cases found : latestQr s.output with
      | none => cases failed : s.output.contains '✗' <;> simp
      | some qr => simp
  · simp

theorem statusOf_unpaired {running : Bool} {local_ : HermesPairingStatus} (open_ : reportsPaired output = false)
    (read : statusOf deflateSync output running = .ok local_) :
    ∃ image, readQr deflateSync output = .ok image ∧
      local_ = (if image.isSome ∧ running then
          ⟨.awaitingScan, image, some "Open WhatsApp on your phone, then Settings → Linked Devices → Link a Device."⟩
        else if output.contains '✗' ∨ (!running ∧ output ≠ []) then
          ⟨.failed, none, some ((lastLine output).getD "The pairing command did not finish.")⟩
        else ⟨.starting, none, lastLine output⟩) := by
  rw [statusOf, open_] at read
  cases shown : readQr deflateSync output with
  | error fault =>
    rw [shown] at read
    cases read
  | ok image =>
    rw [shown] at read
    exact ⟨image, rfl, (Except.ok.inj read).symm⟩

theorem uncoloured_agree {s : Session} {running : Bool} {local_ : HermesPairingStatus} (plain : Uncoloured s.output)
    (read : statusOf deflateSync s.output running = .ok local_) :
    ∃ remote, callService deflateSync (snapshot s running) = .ok (some remote) ∧ remote.qr = local_.qr ∧
      (remote.state = local_.state ↔
        ¬ (reportsPaired s.output = false ∧
          ((running = true ∧ (latestQr s.output).isSome ∧ local_.qr = none) ∨ (running = false ∧ s.output = [])))) := by
  obtain ⟨paired, taken⟩ | ⟨open_, runs, qr, found, taken⟩ | ⟨open_, unscanned, stopped, taken⟩ |
    ⟨open_, runs, none_, fine, taken⟩ := snapshot_cases s running
  · have shown : local_ = ⟨.paired, none, lastLine s.output⟩ := by
      rw [statusOf, paired] at read
      exact (Except.ok.inj read).symm
    rw [taken, shown, paired]
    exact ⟨⟨.paired, none, lastLine s.output⟩, rfl, rfl, by simp⟩
  · obtain ⟨image, shown, told⟩ := statusOf_unpaired open_ read
    rw [block_picture plain, found, Option.elim_some] at shown
    have kept : (some qr).filter (fun qr => decide (qr ≠ [])) = some qr := by
      rw [Option.filter_some, if_pos (by simpa using latestQr_some found)]
    refine ⟨⟨.awaitingScan, image, some "Scan the QR"⟩, ?_, ?_⟩
    · rw [taken, callService, if_neg (by simp), kept]
      dsimp only
      rw [shown]
      rfl
    · rw [told, runs, found, open_]
      cases image with
      | none => cases failed : s.output.contains '✗' <;> simp
      | some image => simp
  · obtain ⟨image, shown, told⟩ := statusOf_unpaired open_ read
    have waiting : ¬ (image.isSome = true ∧ running = true) := by
      intro scan
      have none_ : latestQr s.output = none := by simpa [scan.2] using unscanned
      rw [block_picture plain, none_, Option.elim_none] at shown
      rw [← Except.ok.inj shown] at scan
      cases scan.1
    rw [if_neg waiting] at told
    refine ⟨⟨.failed, none, some ((lastLine s.output).getD "the pairing command did not finish")⟩, ?_, ?_⟩
    · rw [taken]
      rfl
    · rw [told, open_]
      cases running
      · by_cases silent : s.output = [] <;> simp [silent]
      · have failed : s.output.contains '✗' = true := by simpa using stopped
        have none_ : latestQr s.output = none := by simpa using unscanned
        rw [if_pos (.inl failed)]
        simp [none_]
  · obtain ⟨image, shown, told⟩ := statusOf_unpaired open_ read
    rw [block_picture plain, none_, Option.elim_none] at shown
    obtain rfl := Except.ok.inj shown
    refine ⟨⟨.starting, none, lastLine s.output⟩, ?_, ?_⟩
    · rw [taken]
      rfl
    · rw [told, open_, runs, none_, fine]
      simp

theorem coloured_unseen {s : Session} (coloured : Coloured s.output) (running : Bool) :
    ∃ remote, callService deflateSync (snapshot s running) = .ok (some remote) ∧ remote.qr = none ∧
      remote.state ≠ .awaitingScan := by
  have unseen := latestQr_coloured coloured
  obtain ⟨-, taken⟩ | ⟨-, -, qr, found, -⟩ | ⟨-, -, -, taken⟩ | ⟨-, -, -, -, taken⟩ := snapshot_cases s running
  · exact ⟨⟨.paired, none, lastLine s.output⟩, by rw [taken]; rfl, rfl, by simp⟩
  · rw [unseen] at found
    cases found
  · refine ⟨⟨.failed, none, some ((lastLine s.output).getD "the pairing command did not finish")⟩, ?_, rfl, by simp⟩
    rw [taken]
    rfl
  · exact ⟨⟨.starting, none, lastLine s.output⟩, by rw [taken]; rfl, rfl, by simp⟩

/-- A code without colour is one code to both, and the state is one but for two moments: a code that no picture can be
drawn from, and a wizard that stopped before it said anything. A code in colour is shown by the console alone. -/
theorem consoles_agree {s : Session} {running : Bool} {local_ : HermesPairingStatus}
    (read : statusOf deflateSync s.output running = .ok local_) :
    (Uncoloured s.output → ∃ remote, callService deflateSync (snapshot s running) = .ok (some remote) ∧ remote.qr = local_.qr ∧
      (remote.state = local_.state ↔
        ¬ (reportsPaired s.output = false ∧
          ((running = true ∧ (latestQr s.output).isSome ∧ local_.qr = none) ∨ (running = false ∧ s.output = []))))) ∧
    (Coloured s.output → ∃ remote, callService deflateSync (snapshot s running) = .ok (some remote) ∧ remote.qr = none ∧
      remote.state ≠ .awaitingScan) :=
  ⟨fun plain => uncoloured_agree plain read, fun coloured => coloured_unseen coloured running⟩

end

/-- A code of one row of blocks, which no picture is drawn from: the service asks for a scan, the console waits. -/
theorem consoles_agree_bar :
    let output := qrMarker ++ '\n' :: List.replicate 30 '█'
    ∃ remote, callService (fun raw => raw) (snapshot ⟨output, 0, []⟩ true) = .ok (some remote) ∧ remote.qr = none ∧
      remote.state ≠ .starting := by
  intro output
  have read : statusOf (fun raw => raw) output true = .ok ⟨.starting, none, some (String.ofList (List.replicate 30 '█'))⟩ := by
    decide +kernel
  obtain ⟨remote, asked, qr, state⟩ := (consoles_agree (s := ⟨output, 0, []⟩) read).1 (by decide +kernel)
  exact ⟨remote, asked, qr, fun same => state.mp same ⟨by decide +kernel, .inl ⟨rfl, by decide +kernel, rfl⟩⟩⟩

end GroupButler.Pairing.TerminalQr
