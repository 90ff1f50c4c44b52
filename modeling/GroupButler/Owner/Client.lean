import GroupButler.Foundation.Path
import GroupButler.Foundation.Prefixes
import GroupButler.Owner.Throttle

/-!
# The client a login counts against

The key of a request is an address some proxy appended to its chain. Whatever a client writes in front of the
chain changes neither the key nor any count.
-/

namespace GroupButler.Owner
open Foundation

def directClient : String := "direct"

def isAddressChar (c : Char) : Bool :=
  c.isDigit || ('a' ≤ c && c ≤ 'f') || ('A' ≤ c && c ≤ 'F') || c == '.' || c == ':'

/-- The address itself where it is usable. -/
def keyOf (address : String) : String :=
  let forwarded := jsTrim address
  if 0 < forwarded.length ∧ (utf16 forwarded).length ≤ 45 ∧ forwarded.toList.all isAddressChar then forwarded else directClient

/-- `clientKey`, where `hops` is the number `TRUSTED_PROXY_HOPS` reads as, if it is an integer. -/
def clientKey (hops : Option Int) (header : Option String) : String :=
  match hops with
  | none => directClient
  | some hops =>
    if hops < 1 then directClient
    else
      let chain : List String := (header.map fun value => (value.toList.splitOn ',').map String.ofList).getD []
      if hops ≤ chain.length then keyOf (chain.getD (chain.length - hops).toNat "") else keyOf ""

/-! ### Chains -/

/-- A proxy appends the address it was called from. -/
def appendPeer (header : Option String) (peer : String) : Option String :=
  some (match header with
    | none => peer
    | some header => header ++ ", " ++ peer)

def throughProxies (forged : Option String) (peers : List String) : Option String := peers.foldl appendPeer forged

theorem jsTrim_blank (address : String) : jsTrim (" " ++ address) = jsTrim address := by
  have blank : isJsSpace ' ' = true := by decide
  unfold jsTrim trimChars
  rw [String.toList_append, show " ".toList = [' '] from rfl, List.singleton_append, List.dropWhile_cons_of_pos blank]

theorem keyOf_blank (address : String) : keyOf (" " ++ address) = keyOf address := by
  unfold keyOf
  rw [jsTrim_blank]

theorem splitOn_throughProxies (header : String) {peers : List String} (plain : ∀ peer ∈ peers, ',' ∉ peer.toList) :
    ∃ value, throughProxies (some header) peers = some value ∧
      value.toList.splitOn ',' = header.toList.splitOn ',' ++ peers.map fun peer => ' ' :: peer.toList := by
  induction peers generalizing header with
  | nil => exact ⟨header, rfl, (List.append_nil _).symm⟩
  | cons peer peers ih =>
    obtain ⟨value, whole, parts⟩ := ih (header ++ ", " ++ peer) fun other member => plain other (List.mem_cons_of_mem _ member)
    refine ⟨value, whole, ?_⟩
    have last : (' ' :: peer.toList).splitOn ',' = [' ' :: peer.toList] := by
      apply List.splitOn_eq_singleton
      intro member
      rcases List.mem_cons.mp member with blank | inside
      · exact absurd blank (by decide)
      · exact plain peer List.mem_cons_self inside
    rw [parts, String.toList_append, String.toList_append, show ", ".toList = [',', ' '] from rfl, List.append_assoc, List.cons_append,
      List.singleton_append, List.splitOn_append_cons_self, last, List.append_assoc]
    rfl

/-- Behind as many proxies as are trusted the key is the address the first of them was called from. -/
theorem clientKey_throughProxies (forged : Option String) {peer : String} {peers : List String}
    (plain : ∀ other ∈ peer :: peers, ',' ∉ other.toList) :
    clientKey (some (peers.length + 1)) (throughProxies forged (peer :: peers)) = keyOf peer := by
  have rest : ∀ other ∈ peers, ',' ∉ other.toList := fun other member => plain other (List.mem_cons_of_mem _ member)
  have alone (cs : List Char) (inside : ',' ∉ cs) : cs.splitOn ',' = [cs] := List.splitOn_eq_singleton inside
  -- the chain ends in the proxies' own addresses, whatever stands before them
  obtain ⟨front, first, value, whole, parts, same⟩ : ∃ (front : List (List Char)) (first : List Char) (value : String),
      throughProxies forged (peer :: peers) = some value ∧
      value.toList.splitOn ',' = front ++ first :: peers.map (fun peer => ' ' :: peer.toList) ∧ keyOf (String.ofList first) = keyOf peer := by
    cases forged with
    | none =>
      obtain ⟨value, whole, parts⟩ := splitOn_throughProxies peer rest
      refine ⟨[], peer.toList, value, whole, ?_, by rw [String.ofList_toList]⟩
      rw [parts, alone _ (plain peer List.mem_cons_self)]
      rfl
    | some header =>
      obtain ⟨value, whole, parts⟩ := splitOn_throughProxies header plain
      refine ⟨header.toList.splitOn ',', ' ' :: peer.toList, value, whole, by rw [parts, List.map_cons], ?_⟩
      rw [← keyOf_blank peer, ← String.toList_inj.mp (show (String.ofList (' ' :: peer.toList)).toList = (" " ++ peer).toList by
        rw [String.toList_ofList, String.toList_append]; rfl)]
  have length : (front ++ first :: peers.map fun peer => ' ' :: peer.toList).length = front.length + (peers.length + 1) := by
    rw [List.length_append, List.length_cons, List.length_map]
  unfold clientKey
  dsimp only
  rw [if_neg (by omega), whole, Option.map_some, Option.getD_some, parts, List.length_map, length, if_pos (by omega)]
  have index : ((↑(front.length + (peers.length + 1)) : Int) - (↑peers.length + 1)).toNat = front.length := by omega
  rw [index, List.getD_eq_getElem?_getD, List.getElem?_map, List.getElem?_append_right (Nat.le_refl _), Nat.sub_self, List.getElem?_cons_zero]
  exact same

/-! ### The limiter behind proxies -/

inductive ProxiedEvent where
  | tick (ms : Nat)
  /-- A request, the header its client wrote, and the addresses the trusted proxies were called from. -/
  | request (id : Nat) (forged : Option String) (peers : List String)
  | body (id : Nat) (credentials : Option (String × String))

def ProxiedEvent.seen (hops : Nat) : ProxiedEvent → LoginEvent
  | .tick ms => .tick ms
  | .request id forged peers => .request id (clientKey (some hops) (throughProxies forged peers))
  | .body id credentials => .body id credentials

/-- The same event with another header written by the client. -/
def ProxiedEvent.reforged (forge : Nat → Option String) : ProxiedEvent → ProxiedEvent
  | .request id _ peers => .request id (forge id) peers
  | event => event

/-- Every trusted proxy appended an address of its own. -/
def ProxiedEvent.Behind (hops : Nat) : ProxiedEvent → Prop
  | .request _ _ peers => peers.length = hops ∧ ∀ peer ∈ peers, ',' ∉ peer.toList
  | _ => True

theorem seen_reforged {hops : Nat} (some_ : 0 < hops) {event : ProxiedEvent} (behind : event.Behind hops) (forge : Nat → Option String) :
    (event.reforged forge).seen hops = event.seen hops := by
  cases event with
  | tick ms => rfl
  | body id credentials => rfl
  | request id forged peers =>
    obtain ⟨length, plain⟩ := behind
    cases peers with
    | nil =>
      rw [List.length_nil] at length
      omega
    | cons peer peers =>
      have keys (header : Option String) : clientKey (some hops) (throughProxies header (peer :: peers)) = keyOf peer := by
        rw [← length]
        exact clientKey_throughProxies header plain
      rw [ProxiedEvent.reforged, ProxiedEvent.seen, ProxiedEvent.seen, keys, keys]

/-- Behind trusted proxies no header a client writes changes any count of the limiter, in any interleaving of requests; and
where verifications come in turn no window of an address sees more failed ones than the limit. -/
theorem forged_chains_throttled [Passwords] (env : OwnerEnv) {limit : Nat} (positive : 0 < limit) (now : Int) {hops : Nat}
    (some_ : 0 < hops) {events : List ProxiedEvent} (behind : ∀ event ∈ events, event.Behind hops) :
    (∀ forge, run (loginStep env limit) (Logins.start now) (events.map fun event => (event.reforged forge).seen hops) =
      run (loginStep env limit) (Logins.start now) (events.map (·.seen hops))) ∧
    (Along (loginStep env limit) (InTurn env limit) (Logins.start now) (events.map (·.seen hops)) →
      ∀ forge, ∀ window ∈ (run (loginStep env limit) (Logins.start now)
        (events.map fun event => (event.reforged forge).seen hops)).windows, window.performed ≤ limit) := by
  have same (forge : Nat → Option String) : (events.map fun event => (event.reforged forge).seen hops) = events.map (·.seen hops) :=
    List.map_congr_left fun event member => seen_reforged some_ (behind event member) forge
  refine ⟨fun forge => by rw [same], fun inTurn forge window member => ?_⟩
  rw [same] at member
  have kept := run_invariant_along (fun s e throttled met => loginStep_throttled env positive throttled e met)
    (fun _ none => absurd none List.not_mem_nil) inTurn
  exact (kept window member).1

/-- One wrong password from an address behind one proxy, whatever chain its client forges. -/
theorem forged_chains_throttled_one :
    let _ : Passwords := ⟨fun _ _ => false, id⟩
    let env : OwnerEnv := ⟨"owner@local", "hash", "", "", true⟩
    let events : List ProxiedEvent := [.request 1 (some "10.0.0.9") ["203.0.113.7"], .body 1 (some ("owner@local", "a"))]
    ∀ forge, ∀ window ∈ (run (loginStep env 1) (Logins.start 0) (events.map fun event => (event.reforged forge).seen 1)).windows,
      window.performed ≤ 1 := by
  intro _ env events
  have behind : ∀ event ∈ events, event.Behind 1 := by
    intro event member
    rcases List.mem_cons.mp member with rfl | member
    · exact ⟨rfl, by decide⟩
    · rw [List.mem_singleton.mp member]
      trivial
  exact (forged_chains_throttled env (by decide) 0 (by decide) behind).2 (by decide)

/-! ### After sign-in -/

def defaultLanding : List Char := ['/']

def safeNextPath (value : Option (List Char)) : List Char :=
  match value with
  | none => defaultLanding
  | some value =>
    if ¬ ['/'].isPrefixOf value ∨ ['/', '/'].isPrefixOf value then defaultLanding
    else if value.any fun c => c.toNat ≤ 0x1f || c.toNat == 0x7f || c == '\\' then defaultLanding
    else value

/-- What a browser reads of a reference before it resolves it: tabs and line breaks are removed, and controls and blanks
at its ends. -/
def browserInput (value : List Char) : List Char :=
  let inner := ((value.dropWhile fun c => c.toNat ≤ 0x20).reverse.dropWhile fun c => c.toNat ≤ 0x20).reverse
  inner.filter fun c => c != '\t' && c != '\n' && c != '\r'

/-- A path of the page's own origin: one slash, and neither a slash nor a backslash behind it. -/
def OwnPath (input : List Char) : Prop := ∃ rest, input = '/' :: rest ∧ ∀ c ∈ rest.head?, c ≠ '/' ∧ c ≠ '\\'

/-- Whatever the query names, sign-in sends the owner to a path the browser resolves on the console's own origin. -/
theorem safeNextPath_own (value : Option (List Char)) : OwnPath (browserInput (safeNextPath value)) := by
  have landing : OwnPath (browserInput defaultLanding) := ⟨[], by decide, fun c none => by cases none⟩
  unfold safeNextPath
  split
  · exact landing
  · rename_i value
    split
    · exact landing
    · rename_i path
      split
      · exact landing
      · rename_i visible
        rw [not_or, not_not] at path
        obtain ⟨slash, single⟩ := path
        cases value with
        | nil => cases slash
        | cons c rest =>
          rw [List.isPrefixOf_cons_cons, Bool.and_eq_true, beq_iff_eq] at slash
          obtain rfl := slash.1.symm
          rw [Bool.not_eq_true, List.any_eq_false] at visible
          have plain : ∀ c ∈ '/' :: rest, ¬ c.toNat ≤ 0x1f ∧ c ≠ '\\' := by
            intro c member
            have shown := visible c member
            simp only [Bool.or_eq_true, decide_eq_true_eq, beq_iff_eq, not_or] at shown
            exact ⟨shown.1.1, shown.2⟩
          -- only blanks at the end are cut off
          obtain ⟨kept, front, cut⟩ := @rdropWhile_append _ (fun c : Char => decide (c.toNat ≤ 0x20)) ['/'] rest (by
            intro c last
            obtain rfl := Option.some.inj last
            decide)
          have inner : ∀ c ∈ '/' :: kept, c ∈ '/' :: rest := by
            intro c member
            rcases List.mem_cons.mp member with rfl | later
            · exact List.mem_cons_self
            · exact List.mem_cons_of_mem _ (front.subset later)
          have whole : browserInput ('/' :: rest) = '/' :: kept := by
            have started : ('/' :: rest).dropWhile (fun c => decide (c.toNat ≤ 0x20)) = '/' :: rest :=
              List.dropWhile_cons_of_neg (by decide)
            rw [browserInput, started]
            show ((('/' :: rest).rdropWhile fun c => decide (c.toNat ≤ 0x20)).filter _) = _
            rw [show '/' :: rest = ['/'] ++ rest from rfl, cut]
            refine List.filter_eq_self.mpr fun c member => ?_
            have visible := (plain c (inner c member)).1
            rw [Bool.and_eq_true, Bool.and_eq_true, bne_iff_ne, bne_iff_ne, bne_iff_ne]
            refine ⟨⟨?_, ?_⟩, ?_⟩
            · intro tab
              exact visible (by rw [tab]; decide)
            · intro newline
              exact visible (by rw [newline]; decide)
            · intro carriage
              exact visible (by rw [carriage]; decide)
          rw [whole]
          refine ⟨kept, rfl, fun c head => ?_⟩
          obtain ⟨tail, rfl⟩ := front
          obtain ⟨more, rfl⟩ := List.head?_eq_some_iff.mp head
          refine ⟨fun same => single ?_, (plain c (List.mem_cons_of_mem _ List.mem_cons_self)).2⟩
          rw [same]
          rfl

end GroupButler.Owner
