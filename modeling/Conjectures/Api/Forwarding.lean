import Conjectures.Api.Addresses
import Conjectures.Db.Instructions

/-!
# Whom a request is billed to

`submission_api/middleware.py`, `client_address` and `is_internal_caller`.  Each trusted proxy in
front of the API adds the address it received the request from to the `X-Forwarded-For` field,
either to its last line or as a line of its own; everything else in the field is the client's.

The code reads the first line of the field.  So the address is the one the outermost trusted proxy
received from if all that the proxies write is on that line (`OneLine`), and otherwise the client
writes what is counted, unless it wrote no line at all (`billed_to_client_iff`).
-/

namespace Conjectures.Api

open Db

/-- What the server says of a request: the host of the peer, and the header fields with their names
in lower case. -/
structure Scope where
  client : Option (List Char)
  headers : List (List Char × List Char)

def unknownClient : List Char := "unknown".toList

/-- The name of the field the proxies write. -/
def forwardedFor : List Char := "x-forwarded-for".toList

/-- `str.strip`. -/
def trim (text : List Char) : List Char :=
  (text.dropWhile fun c ↦ IsSpace c).rdropWhile fun c ↦ IsSpace c

/-- `_header`: the first field of the name. -/
def header (scope : Scope) (name : List Char) : List Char :=
  (scope.headers.lookup name).getD []

/-- `_within`. -/
def within (address : List Char) (networks : List IpNetwork) : Bool :=
  match ipAddress? address with
  | none => false
  | some parsed => networks.any (·.contains parsed)

/-- `_normalised_address`: a proxy may append a port. -/
def normalisedAddress (value : List Char) : Option (List Char) :=
  let candidate := trim value
  let candidate :=
    if candidate.head? = some '[' then (candidate.takeWhile (· ≠ ']')).tail
    else if candidate.count ':' = 1 then candidate.takeWhile (· ≠ ':')
    else candidate
  (ipAddress? candidate).map IpAddress.str

/-- The entries of a field line. -/
def entries (forwarded : List Char) : List (List Char) :=
  ((forwarded.splitOn ',').map trim).filter (· ≠ [])

def clientAddress (scope : Scope) (trustedHops : ℕ) (trustedPeers : List IpNetwork) : List Char :=
  let fallback := scope.client.getD unknownClient
  if trustedHops = 0 then fallback
  else if trustedPeers ≠ [] ∧ ¬ within fallback trustedPeers then fallback
  else
    let forwarded := header scope forwardedFor
    if forwarded = [] then fallback
    else
      let chain := entries forwarded
      if chain.length < trustedHops then fallback
      else (normalisedAddress (chain.getD (chain.length - trustedHops) [])).getD fallback

def isInternalCaller (scope : Scope) (trustedHops : ℕ) (trustedPeers : List IpNetwork) : Bool :=
  if trustedHops = 0 ∨ trustedPeers = [] then false
  else
    match scope.client with
    | none => false
    | some peer => within peer trustedPeers && header scope forwardedFor = []

/-! ## The proxies -/

/-- Where a proxy adds its entry. -/
inductive Placement where
  | lastLine
  | newLine
  deriving DecidableEq

/-- A trusted proxy: the address it received the request from, as it writes it. -/
structure Hop where
  entry : List Char
  placement : Placement
  written : trim entry ≠ []
  single : ',' ∉ entry

/-- An entry is added to the last line of the field, if it has one. -/
def addToLast (entry : List Char) :
    List (List Char × List Char) → Option (List (List Char × List Char))
  | [] => none
  | (name, value) :: headers =>
    match addToLast entry headers with
    | some headers => some ((name, value) :: headers)
    | none =>
      if name = forwardedFor then some ((name, value ++ ',' :: entry) :: headers) else none

/-- What a proxy makes of the header fields. -/
def Hop.forward (headers : List (List Char × List Char)) (hop : Hop) :
    List (List Char × List Char) :=
  match hop.placement with
  | .lastLine => (addToLast hop.entry headers).getD (headers ++ [(forwardedFor, hop.entry)])
  | .newLine => headers ++ [(forwardedFor, hop.entry)]

/-- The lines of the field. -/
def fieldLines (headers : List (List Char × List Char)) : List (List Char) :=
  (headers.filter fun field ↦ field.1 = forwardedFor).map Prod.snd

/-- What a proxy makes of the lines of the field. -/
def Hop.extend (lines : List (List Char)) (hop : Hop) : List (List Char) :=
  match hop.placement, lines.getLast? with
  | .lastLine, some last => lines.dropLast ++ [last ++ ',' :: hop.entry]
  | _, _ => lines ++ [hop.entry]

/-- A request that reaches the API through the proxies, the outermost first. -/
def arrived (peer : List Char) (hops : List Hop) (headers : List (List Char × List Char)) : Scope :=
  ⟨some peer, hops.foldl Hop.forward headers⟩

/-! ## The first line -/

section Lines

variable {headers : List (List Char × List Char)} {hop : Hop} {hops : List Hop}
  {lines : List (List Char)} {line entry : List Char}

theorem header_eq (scope : Scope) :
    header scope forwardedFor = ((fieldLines scope.headers).head?).getD [] := by
  unfold header fieldLines
  congr 1
  induction scope.headers with
  | nil => rfl
  | cons field headers ih =>
    obtain ⟨name, value⟩ := field
    by_cases hname : name = forwardedFor
    · simp [hname]
    · rw [List.lookup_cons, beq_false_of_ne (Ne.symm hname), List.filter_cons_of_neg (by simpa)]
      exact ih

theorem fieldLines_cons (name value : List Char) (headers : List (List Char × List Char)) :
    fieldLines ((name, value) :: headers) =
      if name = forwardedFor then value :: fieldLines headers else fieldLines headers := by
  unfold fieldLines
  by_cases hname : name = forwardedFor
  · simp [hname]
  · rw [List.filter_cons_of_neg (by simpa), if_neg hname]

/-- The last line of the field is added to, if there is one. -/
theorem addToLast_spec (entry : List Char) (headers : List (List Char × List Char)) :
    (addToLast entry headers).map fieldLines =
      (fieldLines headers).getLast?.map fun last ↦
        (fieldLines headers).dropLast ++ [last ++ ',' :: entry] := by
  induction headers with
  | nil => rfl
  | cons field headers ih =>
    obtain ⟨name, value⟩ := field
    rw [fieldLines_cons]
    cases hadd : addToLast entry headers with
    | none =>
      rw [hadd, Option.map_none, eq_comm, Option.map_eq_none_iff, List.getLast?_eq_none_iff] at ih
      simp only [addToLast, hadd, ih]
      by_cases hname : name = forwardedFor
      · simp [hname, fieldLines_cons, ih]
      · simp [hname]
    | some headers' =>
      rw [hadd, Option.map_some] at ih
      simp only [addToLast, hadd, Option.map_some, fieldLines_cons]
      by_cases hname : name = forwardedFor
      · rw [if_pos hname, if_pos hname]
        obtain ⟨last, hlast, hlines⟩ := Option.map_eq_some_iff.mp ih.symm
        have hne : fieldLines headers ≠ [] := fun hnil ↦ by simp [hnil] at hlast
        rw [List.getLast?_cons_of_ne_nil hne, hlast, List.dropLast_cons_of_ne_nil hne,
          Option.map_some, List.cons_append, hlines]
      · rw [if_neg hname, if_neg hname]
        exact ih

theorem fieldLines_append (headers : List (List Char × List Char)) (entry : List Char) :
    fieldLines (headers ++ [(forwardedFor, entry)]) = fieldLines headers ++ [entry] := by
  unfold fieldLines
  simp [List.filter_append]

theorem fieldLines_forward (headers : List (List Char × List Char)) (hop : Hop) :
    fieldLines (Hop.forward headers hop) = Hop.extend (fieldLines headers) hop := by
  unfold Hop.forward Hop.extend
  cases hop.placement with
  | newLine => exact fieldLines_append headers hop.entry
  | lastLine =>
    have hspec := addToLast_spec hop.entry headers
    cases hadd : addToLast hop.entry headers with
    | none =>
      rw [hadd, Option.map_none, eq_comm, Option.map_eq_none_iff] at hspec
      simp only [hspec, Option.getD_none]
      exact fieldLines_append headers hop.entry
    | some headers' =>
      rw [hadd, Option.map_some] at hspec
      obtain ⟨last, hlast, hlines⟩ := Option.map_eq_some_iff.mp hspec.symm
      simp only [hlast, Option.getD_some]
      exact hlines.symm

theorem fieldLines_arrived (peer : List Char) (hops : List Hop)
    (headers : List (List Char × List Char)) :
    fieldLines (arrived peer hops headers).headers =
      hops.foldl Hop.extend (fieldLines headers) := by
  unfold arrived
  dsimp only
  induction hops generalizing headers with
  | nil => rfl
  | cons hop hops ih => rw [List.foldl_cons, List.foldl_cons, ih, fieldLines_forward]

/-- What the first line of the field says once the proxies have written: they write behind what is
there, and only while it is the last line. -/
theorem entries_append (line : List Char) (hop : Hop) :
    entries (line ++ ',' :: hop.entry) = entries line ++ [trim hop.entry] := by
  unfold entries
  rw [List.splitOn_append_cons_self, List.splitOn_eq_singleton hop.single, List.map_append,
    List.filter_append, List.map_singleton, List.filter_cons_of_pos (by simpa using hop.written),
    List.filter_nil]

theorem entries_nil : entries [] = [] := rfl

theorem entries_entry (hop : Hop) : entries hop.entry = [trim hop.entry] := by
  unfold entries
  rw [List.splitOn_eq_singleton hop.single, List.map_singleton,
    List.filter_cons_of_pos (by simpa using hop.written), List.filter_nil]

/-- The proxies that write on the first line of the field, if it is there and others are or not. -/
def reached (others : List (List Char)) (hops : List Hop) : List Hop :=
  if others = [] then hops.takeWhile (·.placement = .lastLine) else []

theorem entries_first (line : List Char) (others : List (List Char)) (hops : List Hop) :
    ∃ line' others', hops.foldl Hop.extend (line :: others) = line' :: others' ∧
      entries line' = entries line ++ (reached others hops).map (trim ·.entry) := by
  induction hops generalizing line others with
  | nil => exact ⟨line, others, rfl, by simp [reached]⟩
  | cons hop hops ih =>
    rw [List.foldl_cons]
    cases hplace : hop.placement with
    | newLine =>
      have hextend : Hop.extend (line :: others) hop = line :: (others ++ [hop.entry]) := by
        simp [Hop.extend, hplace]
      obtain ⟨line', others', hlines, hentries⟩ := ih line (others ++ [hop.entry])
      refine ⟨line', others', by rw [hextend, hlines], ?_⟩
      simpa [reached, hplace] using hentries
    | lastLine =>
      cases others with
      | nil =>
        have hextend : Hop.extend [line] hop = [line ++ ',' :: hop.entry] := by
          simp [Hop.extend, hplace]
        obtain ⟨line', others', hlines, hentries⟩ := ih (line ++ ',' :: hop.entry) []
        refine ⟨line', others', by rw [hextend, hlines], ?_⟩
        rw [hentries, entries_append]
        simp [reached, hplace]
      | cons other others =>
        obtain ⟨others₁, hne, hextend⟩ : ∃ others₁, others₁ ≠ [] ∧
            Hop.extend (line :: other :: others) hop = line :: others₁ := by
          refine ⟨(other :: others).dropLast ++
            [(other :: others).getLast (by simp) ++ ',' :: hop.entry], by simp, ?_⟩
          simp [Hop.extend, hplace, List.getLast?_eq_some_getLast]
        obtain ⟨line', others', hlines, hentries⟩ := ih line others₁
        refine ⟨line', others', by rw [hextend, hlines], ?_⟩
        simpa [reached, hne] using hentries

end Lines

/-! ## What is billed -/

section Billed

variable {peer line : List Char} {networks : List IpNetwork} {first : Hop} {rest : List Hop}
  {n : ℕ} {scope : Scope}

/-- The address the outermost trusted proxy received the request from, or the peer's own where that
entry is no address. -/
def billed (peer : List Char) (first : Hop) : List Char :=
  (normalisedAddress (trim first.entry)).getD peer

/-- The peer is outside the networks that are trusted. -/
def Outside (peer : List Char) (networks : List IpNetwork) : Prop :=
  networks ≠ [] ∧ within peer networks = false

/-- All that the proxies write is on the first line of the field: the client wrote at most one line,
and every proxy that finds a line there adds to it. -/
def OneLine (first : Hop) (rest : List Hop) (k : ℕ) : Prop :=
  (∀ hop ∈ rest, hop.placement = .lastLine) ∧ (k = 0 ∨ k = 1 ∧ first.placement = .lastLine)

/-- However the client writes its `k` lines, the request is billed to the address the outermost
proxy received it from, or to a peer that is outside the trusted networks, and is not taken for a
call of the host itself. -/
def BillsRightly (peer : List Char) (networks : List IpNetwork) (first : Hop) (rest : List Hop)
    (k : ℕ) : Prop :=
  ∀ headers, (fieldLines headers).length = k →
    (Outside peer networks →
      clientAddress (arrived peer (first :: rest) headers) (rest.length + 1) networks = peer) ∧
    (¬ Outside peer networks →
      clientAddress (arrived peer (first :: rest) headers) (rest.length + 1) networks =
        billed peer first) ∧
    isInternalCaller (arrived peer (first :: rest) headers) (rest.length + 1) networks = false

theorem clientAddress_outside (h : Outside peer networks) (hclient : scope.client = some peer) :
    clientAddress scope n networks = peer := by
  unfold clientAddress
  rw [hclient, Option.getD_some]
  simp [h.1, h.2]

/-- The address is read off the entries of the first line. -/
theorem clientAddress_inside (h : ¬ Outside peer networks) (hclient : scope.client = some peer)
    (hn : 0 < n) {lines : List (List Char)} (hlines : fieldLines scope.headers = line :: lines) :
    clientAddress scope n networks =
      if (entries line).length < n then peer
      else (normalisedAddress ((entries line).getD ((entries line).length - n) [])).getD peer := by
  have hinside : ¬ (networks ≠ [] ∧ ¬ within peer networks = true) := fun ⟨hne, hout⟩ ↦
    h ⟨hne, Bool.eq_false_iff.mpr hout⟩
  have hheader : header scope forwardedFor = line := by
    rw [header_eq, hlines, List.head?_cons, Option.getD_some]
  unfold clientAddress
  rw [hclient, Option.getD_some, if_neg hn.ne', if_neg hinside, hheader]
  dsimp only
  split
  · rename_i hline
    rw [hline, entries_nil, if_pos (by simpa using hn)]
  · rfl

theorem isInternalCaller_eq_false (hwritten : line ≠ []) {lines : List (List Char)}
    (hlines : fieldLines scope.headers = line :: lines) :
    isInternalCaller scope n networks = false := by
  have hheader : header scope forwardedFor = line := by
    rw [header_eq, hlines, List.head?_cons, Option.getD_some]
  unfold isInternalCaller
  rw [hheader]
  split
  · rfl
  · split
    · rfl
    · simp [hwritten]

theorem isInternalCaller_outside (h : Outside peer networks) (hclient : scope.client = some peer) :
    isInternalCaller scope n networks = false := by
  unfold isInternalCaller
  split
  · rfl
  · rw [hclient]
    simp [h.2]

/-- Where the client writes no line, the first line begins with what the outermost proxy writes. -/
theorem entries_no_lines {headers : List (List Char × List Char)} (hnone : fieldLines headers = []) :
    ∃ line lines, fieldLines (arrived peer (first :: rest) headers).headers = line :: lines ∧
      entries line = trim first.entry :: (reached [] rest).map (trim ·.entry) := by
  have hextend : Hop.extend [] first = [first.entry] := by
    unfold Hop.extend
    split
    · rename_i hlast
      cases hlast
    · rfl
  obtain ⟨line, lines, heq, hentries⟩ := entries_first first.entry [] rest
  refine ⟨line, lines, ?_, ?_⟩
  · rw [fieldLines_arrived, hnone, List.foldl_cons, hextend, heq]
  · rw [hentries, entries_entry, List.singleton_append]

/-- If all that the proxies write is on one line, it is the last there, the outermost proxy's entry
before the others. -/
theorem OneLine.entries_last {headers : List (List Char × List Char)}
    (h : OneLine first rest (fieldLines headers).length) :
    ∃ line lines written,
      fieldLines (arrived peer (first :: rest) headers).headers = line :: lines ∧
        entries line = written ++ (first :: rest).map (trim ·.entry) := by
  obtain ⟨hrest, hfirst⟩ := h
  have hall : rest.takeWhile (·.placement = .lastLine) = rest :=
    List.takeWhile_eq_self_iff.mpr fun hop hhop ↦ decide_eq_true (hrest hop hhop)
  cases hlines : fieldLines headers with
  | nil =>
    obtain ⟨line, lines, heq, hentries⟩ := @entries_no_lines peer first rest headers hlines
    exact ⟨line, lines, [], heq, by simpa [reached, hall] using hentries⟩
  | cons line lines =>
    rw [hlines] at hfirst
    obtain ⟨hone, hplace⟩ := hfirst.resolve_left (Nat.succ_ne_zero _)
    obtain rfl : lines = [] := List.eq_nil_of_length_eq_zero (Nat.succ.inj hone)
    obtain ⟨line', lines', heq, hentries⟩ := entries_first line [] (first :: rest)
    refine ⟨line', lines', entries line, ?_, hentries.trans ?_⟩
    · rw [fieldLines_arrived, hlines, heq]
    · simp [reached, hplace, hall]

theorem OneLine.billsRightly {k : ℕ} (h : OneLine first rest k) :
    BillsRightly peer networks first rest k := by
  rintro headers rfl
  obtain ⟨line, lines, written, hlines, hentries⟩ :=
    @OneLine.entries_last peer first rest headers h
  have hwritten : line ≠ [] := fun hnil ↦ by
    rw [hnil, entries_nil] at hentries
    simp at hentries
  refine ⟨fun hout ↦ clientAddress_outside hout rfl, fun hin ↦ ?_,
    isInternalCaller_eq_false hwritten hlines⟩
  have hlen : (entries line).length = written.length + (rest.length + 1) := by
    simp [hentries]
  rw [clientAddress_inside hin rfl (Nat.succ_pos _) hlines, if_neg (by omega), hlen,
    Nat.add_sub_cancel, hentries]
  simp [billed]

/-! ## What the client can write -/

/-- As many copies of an entry as the client likes. -/
def forged (copy : Hop) : ℕ → List Char
  | 0 => []
  | n + 1 => forged copy n ++ ',' :: copy.entry

theorem entries_forged (copy : Hop) (n : ℕ) :
    entries (forged copy n) = List.replicate n (trim copy.entry) := by
  induction n with
  | zero => rfl
  | succ n ih => rw [forged, entries_append, ih, List.replicate_succ']

/-- There is an address that is not the one that should be billed. -/
theorem exists_other_address (address : List Char) :
    ∃ copy : Hop, ∃ other, normalisedAddress (trim copy.entry) = some other ∧ other ≠ address := by
  by_cases h : address = "1.1.1.1".toList
  · exact ⟨⟨"2.2.2.2".toList, .lastLine, by decide, by decide⟩, "2.2.2.2".toList,
      by decide +kernel, by rw [h]; decide⟩
  · exact ⟨⟨"1.1.1.1".toList, .lastLine, by decide, by decide⟩, "1.1.1.1".toList,
      by decide +kernel, Ne.symm h⟩

theorem all_lastLine {hops : List Hop}
    (h : (hops.takeWhile (·.placement = .lastLine)).length = hops.length) :
    ∀ hop ∈ hops, hop.placement = .lastLine := by
  have hall := (List.takeWhile_prefix (p := (·.placement = .lastLine)) (l := hops)).eq_of_length h
  rw [List.takeWhile_eq_self_iff] at hall
  exact fun hop hhop ↦ of_decide_eq_true (hall hop hhop)

/-- Where some proxy writes on another line, fewer entries than there are proxies reach the first
line. -/
theorem reached_lt {others : List (List Char)} (h : ¬ OneLine first rest (others.length + 1)) :
    (reached others (first :: rest)).length < rest.length + 1 := by
  unfold reached
  split
  · rename_i hothers
    subst hothers
    refine lt_of_le_of_ne (List.takeWhile_sublist _).length_le fun hlen ↦ h ?_
    have hall := all_lastLine hlen
    exact ⟨fun hop hhop ↦ hall hop (List.mem_cons_of_mem _ hhop),
      Or.inr ⟨rfl, hall first List.mem_cons_self⟩⟩
  · exact Nat.succ_pos _

/-- Then the client writes what is counted. -/
theorem exists_forged {k : ℕ} (hin : ¬ Outside peer networks) (h : ¬ OneLine first rest (k + 1))
    (address : List Char) : ∃ headers, (fieldLines headers).length = k + 1 ∧
      clientAddress (arrived peer (first :: rest) headers) (rest.length + 1) networks ≠ address := by
  obtain ⟨copy, other, hother, hne⟩ := exists_other_address address
  obtain ⟨missing, hmissing⟩ : ∃ missing, missing =
      rest.length + 1 - (reached (List.replicate k []) (first :: rest)).length := ⟨_, rfl⟩
  have hreached := @reached_lt first rest (List.replicate k []) (by simpa using h)
  have hlines : fieldLines ((forwardedFor, forged copy missing) ::
      List.replicate k (forwardedFor, [])) = forged copy missing :: List.replicate k [] := by
    simp [fieldLines]
  refine ⟨_, by rw [hlines]; simp, ?_⟩
  obtain ⟨line, lines, heq, hentries⟩ :=
    entries_first (forged copy missing) (List.replicate k []) (first :: rest)
  rw [entries_forged] at hentries
  have hlen : (entries line).length = rest.length + 1 := by
    rw [hentries, List.length_append, List.length_replicate, List.length_map]
    omega
  have hcounted : (entries line).getD ((entries line).length - (rest.length + 1)) [] =
      trim copy.entry := by
    obtain ⟨more, hmore⟩ : ∃ more, missing = more + 1 := ⟨missing - 1, by omega⟩
    rw [hlen, Nat.sub_self, hentries, hmore, List.replicate_succ]
    rfl
  rw [clientAddress_inside hin rfl (Nat.succ_pos _)
    (by rw [fieldLines_arrived, hlines, heq]), if_neg (by omega), hcounted, hother,
    Option.getD_some]
  exact hne

/-- If some proxy begins a second line, too few entries are read, and the peer is billed. -/
theorem clientAddress_no_lines {headers : List (List Char × List Char)}
    (hnone : fieldLines headers = []) (hin : ¬ Outside peer networks) (h : ¬ OneLine first rest 0) :
    clientAddress (arrived peer (first :: rest) headers) (rest.length + 1) networks = peer := by
  obtain ⟨line, lines, hlines, hentries⟩ := @entries_no_lines peer first rest headers hnone
  have hfew : (reached [] rest).length < rest.length := by
    rw [reached, if_pos rfl]
    exact lt_of_le_of_ne (List.takeWhile_sublist _).length_le fun hlen ↦
      h ⟨all_lastLine hlen, Or.inl rfl⟩
  rw [clientAddress_inside hin rfl (Nat.succ_pos _) hlines, if_pos]
  simpa [hentries] using hfew

/-- A request is billed rightly, whatever the client writes on its lines, exactly if its peer is
outside the trusted networks, or all that the proxies write is on one line, or the client wrote no
line and the peer's own address is the one to be billed. -/
theorem bills_rightly_iff (peer : List Char) (networks : List IpNetwork) (first : Hop)
    (rest : List Hop) (k : ℕ) :
    BillsRightly peer networks first rest k ↔
      Outside peer networks ∨ OneLine first rest k ∨ k = 0 ∧ billed peer first = peer := by
  constructor
  · intro h
    by_contra hnot
    obtain ⟨hin, hlines, hpeer⟩ : ¬ Outside peer networks ∧ ¬ OneLine first rest k ∧
        ¬ (k = 0 ∧ billed peer first = peer) := by
      simpa only [not_or] using hnot
    cases k with
    | zero =>
      have hbilled := (h [] rfl).2.1 hin
      rw [clientAddress_no_lines rfl hin hlines] at hbilled
      exact hpeer ⟨rfl, hbilled.symm⟩
    | succ k =>
      obtain ⟨headers, hk, hne⟩ := exists_forged hin hlines (billed peer first)
      exact hne ((h headers hk).2.1 hin)
  · rintro (hout | hlines | ⟨rfl, hpeer⟩)
    · exact fun headers _ ↦ ⟨fun _ ↦ clientAddress_outside hout rfl,
        fun hin ↦ absurd hout hin, isInternalCaller_outside hout rfl⟩
    · exact hlines.billsRightly
    · by_cases hlines : OneLine first rest 0
      · exact hlines.billsRightly
      · intro headers hk
        have hnone : fieldLines headers = [] := List.eq_nil_of_length_eq_zero hk
        obtain ⟨line, lines, heq, hentries⟩ := @entries_no_lines peer first rest headers hnone
        have hwritten : line ≠ [] := fun hnil ↦ by
          rw [hnil, entries_nil] at hentries
          cases hentries
        refine ⟨fun hout ↦ clientAddress_outside hout rfl, fun hin ↦ ?_,
          isInternalCaller_eq_false hwritten heq⟩
        rw [clientAddress_no_lines hnone hin hlines, hpeer]

/-- A proxy that begins a line of its own, behind one that the client wrote: the client is billed
to the address it chose. -/
theorem second_line_unread :
    ¬ ∀ (peer : List Char) (networks : List IpNetwork) (first : Hop) (rest : List Hop) (k : ℕ),
      BillsRightly peer networks first rest k := by
  intro h
  have hbilled := (h "10.0.0.1".toList [] ⟨"203.0.113.9".toList, .newLine, by decide, by decide⟩ []
    1 [(forwardedFor, "198.51.100.1".toList)] rfl).2.1 fun hout ↦ hout.1 rfl
  exact absurd hbilled (by decide +kernel)

end Billed

end Conjectures.Api
