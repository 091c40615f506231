import Stackwright.Port
import Stackwright.Proofs.Text.Blank
import Stackwright.Proofs.Text.Digits
import Stackwright.Proofs.Text.Split

/-!
# Expanded port specifications

A specification of two ranges of equal length gives one binding for each port, and
every specification that is read gives consecutive container ports with host ports that
fit them.  For the first, the text is followed through its cuts at the slash, the colons
and the hyphens, where neither digits nor the host address can be taken for them.  The
second holds whatever the text is: a range is read as two ports in order, and the host
ports are always as many as the container ports, so pairing them drops none.

Main results:

- Theorem `cut_hostAddress`: the parts of a written specification.
- Theorem `expand_ranges`: two written ranges are paired up port by port.
- Theorem `isExpansion_of_expand`: what is known of every expansion.
- Theorem `parse_expands`: both, for the texts of specifications.
-/

namespace Stackwright
namespace Port

/-! ## Written specifications -/

/-- The decimal text of a port. -/
def portText (n : Nat) : String :=
  String.ofList (Text.decimal n)

/-- A range of ports, by its first port and the number of ports after it. -/
def rangeText (first more : Nat) : String :=
  portText first ++ "-" ++ portText (first + more)

/-- A host address that can be written in front of ports. -/
structure HostAddress where
  ip : String
  bracketed : Bool
  ne_nil : ip.toList ≠ []
  slash_notMem : '/' ∉ ip.toList
  /-- Without brackets, the address starts with neither a blank nor a bracket. -/
  start : bracketed = false → ∀ c ∈ ip.toList.head?, Text.isBlank c = false ∧ c ≠ '['
  /-- In brackets, the address ends at the first closing bracket before a colon. -/
  close : bracketed = true → ¬ [']', ':'] <:+: ip.toList

def HostAddress.text (address : HostAddress) : String :=
  if address.bracketed then "[" ++ address.ip ++ "]" else address.ip

theorem HostAddress.text_of_bare {address : HostAddress} (h : address.bracketed = false) :
    address.text = address.ip := by
  rw [HostAddress.text, h, if_neg Bool.false_ne_true]

theorem HostAddress.text_of_bracketed {address : HostAddress} (h : address.bracketed = true) :
    address.text.toList = '[' :: (address.ip.toList ++ [']']) := by
  simp [HostAddress.text, h]

/-- The specification of two ranges for a host address and a protocol. -/
def rangesText (address : HostAddress) (published target more : Nat) (protocol : String) : String :=
  address.text ++ ":" ++ rangeText published more ++ ":" ++ rangeText target more ++ "/" ++ protocol

/-! ## Reading written numbers and ranges -/

/-- A port that is in range is read back. -/
theorem readNumber_decimal {n : Nat} (h : n < limit) : readNumber (Text.decimal n) = some n := by
  have hne : (Text.decimal n).isEmpty = false := by simp [Text.decimal_ne_nil]
  have hdigits : (Text.decimal n).all Decimal.isDigit = true :=
    List.all_eq_true.2 fun c hc => Text.isDigit_of_mem_decimal hc
  rw [readNumber, hne, hdigits, Text.digitsValue_decimal]
  simp [Option.filter, h]

/-- A written range is read as its first and last port. -/
theorem readRange_rangeText {first more : Nat} (h : first + more < limit) :
    readRange (rangeText first more).toList = some (first, first + more) := by
  have hcut : Text.splitFirst '-' (rangeText first more).toList
      = some (Text.decimal first, Text.decimal (first + more)) := by
    simpa [rangeText, portText] using
      Text.splitFirst_append (Text.notMem_decimal (by decide) first) (Text.decimal (first + more))
  have hfirst : first < limit := by omega
  rw [readRange, hcut]
  simp [readNumber_decimal hfirst, readNumber_decimal h]

/-- A port that is read is in range. -/
theorem readNumber_lt {s : List Char} {n : Nat} (h : readNumber s = some n) : n < limit := by
  unfold readNumber at h
  split at h
  · rw [Option.filter_eq_some_iff] at h
    simpa using h.2
  · cases h

/-- A range that is read is in order and within the ports. -/
theorem readRange_bounds {s : List Char} {first last : Nat}
    (h : readRange s = some (first, last)) : first ≤ last ∧ last < limit := by
  unfold readRange at h
  split at h
  · obtain ⟨n, hn, hpair⟩ := Option.map_eq_some_iff.1 h
    obtain ⟨rfl, rfl⟩ := Prod.mk.inj hpair
    exact ⟨Nat.le_refl n, readNumber_lt hn⟩
  · obtain ⟨a, ha, h⟩ := Option.bind_eq_some_iff.1 h
    obtain ⟨b, hb, h⟩ := Option.bind_eq_some_iff.1 h
    split at h
    · rename_i hle
      obtain ⟨rfl, rfl⟩ := Prod.mk.inj (Option.some.inj h)
      exact ⟨hle, readNumber_lt hb⟩
    · cases h

/-! ## Cutting written specifications -/

/-- A bracketed address ends at the first closing bracket before a colon. -/
theorem cutBracketed_append {ip : List Char} (h : ¬ [']', ':'] <:+: ip) (rest : List Char) :
    cutBracketed (ip ++ ']' :: ':' :: rest) = some (ip, rest) := by
  induction ip with
  | nil => rfl
  | cons c ip ih =>
      have hrest : ¬ [']', ':'] <:+: ip := fun hinfix => h (List.infix_cons hinfix)
      have hstep : ∀ tail, c = ']' → ip ++ ']' :: ':' :: rest ≠ ':' :: tail := by
        rintro tail rfl heq
        cases ip with
        | nil => cases heq
        | cons d ip =>
            obtain ⟨rfl, -⟩ := List.cons.inj heq
            exact h ⟨[], ip, rfl⟩
      rw [List.cons_append, cutBracketed, ih hrest]
      · rfl
      · exact hstep

/-- An address in brackets ends at a closing bracket with a colon behind it. -/
theorem cutBracketed_eq_some {s ip tail : List Char} (h : cutBracketed s = some (ip, tail)) :
    s = ip ++ ']' :: ':' :: tail := by
  fun_induction cutBracketed s generalizing ip with
  | case1 => cases h
  | case2 rest =>
      obtain ⟨rfl, rfl⟩ := Prod.mk.inj (Option.some.inj h)
      rfl
  | case3 c rest _ ih =>
      obtain ⟨⟨front, back⟩, hcut, hpair⟩ := Option.map_eq_some_iff.1 h
      obtain ⟨rfl, rfl⟩ := Prod.mk.inj hpair
      rw [ih hcut, List.cons_append]

/-- Without brackets, the last two colons cut. -/
theorem cutColons_append {published target : List Char} (hpublished : ':' ∉ published)
    (htarget : ':' ∉ target) (ip : List Char) :
    cutColons (ip ++ ':' :: published ++ ':' :: target) = ⟨some ip, some published, target⟩ := by
  rw [cutColons, Text.splitLast_append htarget]
  simp only
  rw [Text.splitLast_append hpublished]

/-- Without a bracket at its front a text is cut at its colons. -/
theorem cut_eq_cutColons {s : List Char} (h : ∀ c ∈ s.head?, c ≠ '[') : cut s = cutColons s := by
  cases s with
  | nil => rfl
  | cons c s =>
      have hc : c ≠ '[' := h c rfl
      unfold cut
      split
      · rename_i heq
        cases heq
        exact absurd rfl hc
      · rfl

/-- A written host address is cut off with its brackets. -/
theorem cut_hostAddress (address : HostAddress) {published target : List Char}
    (hpublished : ':' ∉ published) (htarget : ':' ∉ target) :
    cut (address.text.toList ++ ':' :: published ++ ':' :: target)
      = ⟨some address.ip.toList, some published, target⟩ := by
  cases hform : address.bracketed with
  | false =>
      have hhead : ∀ c ∈ (address.ip.toList ++ ':' :: published ++ ':' :: target).head?,
          c ≠ '[' := by
        intro c hc
        rw [List.append_assoc, List.head?_append, Option.or_of_isSome
          (by simpa [List.isSome_head?] using address.ne_nil)] at hc
        exact (address.start hform c hc).2
      rw [HostAddress.text_of_bare hform, cut_eq_cutColons hhead,
        cutColons_append hpublished htarget]
  | true =>
      have htext : address.text.toList ++ ':' :: published ++ ':' :: target
          = '[' :: (address.ip.toList ++ ']' :: ':' :: (published ++ ':' :: target)) := by
        simp [HostAddress.text_of_bracketed hform]
      rw [htext, cut, cutBracketed_append (address.close hform)]
      simp only
      rw [Text.splitFirst_append hpublished]

/-! ## Two ranges -/

/-- Characters of a written range are digits and the hyphen. -/
theorem notMem_rangeText {c : Char} (hdigit : Decimal.isDigit c = false) (hhyphen : c ≠ '-')
    (first more : Nat) : c ∉ (rangeText first more).toList := by
  simp [rangeText, portText, Text.notMem_decimal hdigit, hhyphen]

/-- As many host ports as container ports are paired in order. -/
theorem publishedPorts_rangeText {first more : Nat} (hmore : 1 ≤ more)
    (h : first + more < limit) :
    publishedPorts (some (rangeText first more).toList) (more + 1)
      = some ((List.range (more + 1)).map fun i => some (portText (first + i))) := by
  have hmany : ¬ more = 0 := by omega
  simp [publishedPorts, readRange_rangeText h, hmany, portText]

theorem HostAddress.slash_notMem_text (address : HostAddress) : '/' ∉ address.text.toList := by
  cases hform : address.bracketed with
  | false =>
      rw [HostAddress.text_of_bare hform]
      exact address.slash_notMem
  | true => simp [HostAddress.text_of_bracketed hform, address.slash_notMem]

/-- The address and the ranges in front of the protocol. -/
theorem splitFirst_rangesText (address : HostAddress) (published target more : Nat)
    (protocol : String) :
    Text.splitFirst '/' (rangesText address published target more protocol).toList
      = some (address.text.toList ++ ':' :: (rangeText published more).toList
          ++ ':' :: (rangeText target more).toList, protocol.toList) := by
  have hrange : ∀ first, '/' ∉ (rangeText first more).toList :=
    fun first => notMem_rangeText (by decide) (by decide) first more
  have hfront : '/' ∉ address.text.toList ++ ':' :: (rangeText published more).toList
      ++ ':' :: (rangeText target more).toList := by
    simp [address.slash_notMem_text, hrange]
  rw [← Text.splitFirst_append hfront]
  simp [rangesText]

/-- Two written ranges are paired up port by port. -/
theorem expand_ranges (address : HostAddress) {published target more : Nat} (protocol : String)
    (hmore : 1 ≤ more) (hpublished : published + more < limit) (htarget : target + more < limit) :
    expand (rangesText address published target more protocol).toList
      = some ((List.range (more + 1)).map fun i =>
          { target := target + i
            published := some (portText (published + i))
            protocol := some protocol
            hostIp := some address.ip }) := by
  have hcolon : ∀ first, ':' ∉ (rangeText first more).toList :=
    fun first => notMem_rangeText (by decide) (by decide) first more
  have hcount : target + more - target + 1 = more + 1 := by omega
  have hrange : (some (rangeText published more).toList).filter (!·.isEmpty)
      = some (rangeText published more).toList := by simp [rangeText]
  have hip : ((some address.ip.toList).filter (!·.isEmpty)).map String.ofList
      = some address.ip := by simp [Option.filter, address.ne_nil]
  rw [expand, splitFirst_rangesText]
  simp only
  rw [cut_hostAddress address (hcolon published) (hcolon target)]
  simp only [readRange_rangeText htarget, Option.bind_eq_bind, Option.bind_some, hcount, hrange,
    hip, publishedPorts_rangeText hmore hpublished]
  simp [List.zipWith_map]

/-! ## What every specification expands to -/

/-- The host ports of bindings: none at all, one port or range as it is written in the text, or
the texts of consecutive ports. -/
inductive PublishedAs (text : List Char) : List (Option String) → Prop
  | absent (count : Nat) : PublishedAs text (List.replicate count none)
  | verbatim (range : List Char) (written : range <:+: text)
      (isRange : (readRange range).isSome = true) :
      PublishedAs text [some (String.ofList range)]
  | consecutive (first count : Nat) (fits : first + count ≤ limit) :
      PublishedAs text ((List.range' first count).map fun n => some (portText n))

/-- The bindings that one specification can give. -/
structure IsExpansion (text : List Char) (ports : List Port) : Prop where
  ne_nil : ports ≠ []
  targets : ∃ first, first + ports.length ≤ limit ∧
    ports.map Port.target = List.range' first ports.length
  shared : ∃ protocol hostIp, ∀ port ∈ ports, port.protocol = protocol ∧ port.hostIp = hostIp
  published : PublishedAs text (ports.map Port.published)

theorem PublishedAs.mono {s text : List Char} {published : List (Option String)}
    (h : PublishedAs s published) (hs : s <:+: text) : PublishedAs text published := by
  cases h with
  | absent count => exact .absent count
  | verbatim range written isRange => exact .verbatim range (written.trans hs) isRange
  | consecutive first count fits => exact .consecutive first count fits

/-- Host ports are as many as container ports, and of one of the three kinds. -/
theorem publishedAs_of_publishedPorts {published : Option (List Char)} {count : Nat}
    {ports : List (Option String)} {text : List Char}
    (hwritten : ∀ range ∈ published, range <:+: text)
    (h : publishedPorts published count = some ports) :
    ports.length = count ∧ PublishedAs text ports := by
  unfold publishedPorts at h
  cases published with
  | none =>
      obtain rfl := Option.some.inj h
      exact ⟨List.length_replicate, .absent count⟩
  | some range =>
      obtain ⟨⟨first, last⟩, hrange, h⟩ := Option.bind_eq_some_iff.1 h
      simp only at h
      by_cases hone : count = 1
      · rw [if_pos hone] at h
        obtain rfl := Option.some.inj h
        have hsome : (readRange range).isSome = true := by rw [hrange]; rfl
        exact ⟨hone.symm, .verbatim range (hwritten range rfl) hsome⟩
      · rw [if_neg hone] at h
        by_cases hfit : last - first + 1 = count
        · rw [if_pos hfit] at h
          obtain rfl := Option.some.inj h
          obtain ⟨hle, hlt⟩ := readRange_bounds hrange
          have hfits : first + count ≤ limit := by omega
          have hports : PublishedAs text _ := .consecutive first count hfits
          rw [List.range'_eq_map_range, List.map_map] at hports
          exact ⟨by simp, hports⟩
        · rw [if_neg hfit] at h
          cases h

/-- The published ports are a part of the text. -/
theorem published_infix_of_cutColons {s published : List Char}
    (h : (cutColons s).published = some published) : published <:+: s := by
  unfold cutColons at h
  split at h
  · cases h
  · rename_i front target hlast
    have hs := Text.splitLast_eq_some hlast
    split at h
    · obtain rfl := Option.some.inj h
      exact ⟨[], ':' :: target, by rw [hs, List.nil_append]⟩
    · rename_i ip ports hfront
      obtain rfl := Option.some.inj h
      have hports := Text.splitLast_eq_some hfront
      exact ⟨ip ++ [':'], ':' :: target, by rw [hs, hports]; simp⟩

/-- The host ports of a specification are a part of it. -/
theorem published_infix_of_cut {s published : List Char} (h : (cut s).published = some published) :
    published <:+: s := by
  unfold cut at h
  split at h
  · rename_i rest
    split at h
    · rename_i ip tail hip
      split at h
      · rename_i ports target htail
        obtain rfl := Option.some.inj h
        have hrest := cutBracketed_eq_some hip
        rw [Text.splitFirst_eq_some htail] at hrest
        exact ⟨'[' :: ip ++ [']', ':'], ':' :: target, by rw [hrest]; simp⟩
      · cases h
    · exact published_infix_of_cutColons h
  · exact published_infix_of_cutColons h

/-- Pairing container ports with as many host ports drops none of them. -/
theorem isExpansion_of_pairs {text : List Char} {first count : Nat}
    {published : List (Option String)} {protocol hostIp : Option String} (hcount : 0 < count)
    (hfits : first + count ≤ limit) (hlength : published.length = count)
    (hpublished : PublishedAs text published) :
    IsExpansion text (((List.range count).map (first + ·)).zipWith
      (fun target published => { target, published, protocol, hostIp }) published) := by
  rw [← List.map_uncurry_zip_eq_zipWith, ← List.range'_eq_map_range]
  have htargets : (List.range' first count).length = count := List.length_range'
  have hzip : ((List.range' first count).zip published).length = count := by
    rw [List.length_zip, htargets, hlength, Nat.min_self]
  constructor
  · intro hnil
    have hlen := congrArg List.length hnil
    rw [List.length_map, hzip, List.length_nil] at hlen
    omega
  · refine ⟨first, ?_, ?_⟩
    · rwa [List.length_map, hzip]
    · rw [List.length_map, hzip, List.map_map]
      exact List.map_fst_zip (by omega)
  · refine ⟨protocol, hostIp, fun port hport => ?_⟩
    obtain ⟨pair, -, rfl⟩ := List.mem_map.1 hport
    exact ⟨rfl, rfl⟩
  · rw [List.map_map]
    have hsnd : ((List.range' first count).zip published).map Prod.snd = published :=
      List.map_snd_zip (by omega)
    rw [← hsnd] at hpublished
    exact hpublished

/-- What is known of every expansion. -/
theorem isExpansion_of_expand {s : List Char} {ports : List Port} (h : expand s = some ports) :
    IsExpansion s ports := by
  unfold expand at h
  split at h
  rename_i address protocol haddress
  have hpart : address <:+: s := by
    cases hslash : Text.splitFirst '/' s with
    | none =>
        rw [hslash] at haddress
        obtain ⟨rfl, -⟩ := Prod.mk.inj haddress
        exact List.infix_refl s
    | some parts =>
        rw [hslash] at haddress
        obtain ⟨rfl, -⟩ := Prod.mk.inj haddress
        exact ⟨[], '/' :: parts.2, by rw [Text.splitFirst_eq_some hslash, List.nil_append]⟩
  simp only at h
  obtain ⟨⟨first, last⟩, htarget, h⟩ := Option.bind_eq_some_iff.1 h
  obtain ⟨published, hpublished, h⟩ := Option.bind_eq_some_iff.1 h
  obtain rfl := Option.some.inj h
  obtain ⟨hle, hlt⟩ := readRange_bounds htarget
  have hwritten : ∀ range ∈ (cut address).published.filter (!·.isEmpty), range <:+: s := by
    intro range hrange
    exact (published_infix_of_cut (Option.filter_eq_some_iff.1 hrange).1).trans hpart
  obtain ⟨hlength, hkind⟩ := publishedAs_of_publishedPorts hwritten hpublished
  exact isExpansion_of_pairs (by omega) (by omega) hlength hkind

/-- What is an expansion of a part is an expansion of the whole text. -/
theorem IsExpansion.mono {s text : List Char} {ports : List Port} (h : IsExpansion s ports)
    (hs : s <:+: text) : IsExpansion text ports :=
  ⟨h.ne_nil, h.targets, h.shared, h.published.mono hs⟩

/-! ## Specifications as texts -/

/-- A written host address starts with a character that is no blank. -/
theorem HostAddress.exists_text_eq_cons (address : HostAddress) :
    ∃ c rest, address.text.toList = c :: rest ∧ Text.isBlank c = false := by
  cases hform : address.bracketed with
  | false =>
      obtain ⟨c, rest, hip⟩ := List.exists_cons_of_ne_nil address.ne_nil
      have hc := (address.start hform c (by rw [hip]; rfl)).1
      exact ⟨c, rest, by rw [HostAddress.text_of_bare hform, hip], hc⟩
  | true => exact ⟨'[', _, HostAddress.text_of_bracketed hform, by decide⟩

/-- A written specification has no blanks at its ends if its protocol has none. -/
theorem trim_rangesText (address : HostAddress) (published target more : Nat) {protocol : String}
    (hprotocol : ∀ c ∈ protocol.toList.getLast?, Text.isBlank c = false) :
    Text.trim (rangesText address published target more protocol).toList
      = (rangesText address published target more protocol).toList := by
  apply Text.trim_eq_self
  · intro c hc
    obtain ⟨d, rest, htext, hd⟩ := address.exists_text_eq_cons
    simp only [rangesText, String.toList_append, htext, List.cons_append, List.head?_cons,
      Option.mem_some_iff] at hc
    rwa [← hc]
  · intro c hc
    rw [rangesText, String.toList_append, List.getLast?_append] at hc
    cases hlast : protocol.toList.getLast? with
    | none =>
        rw [hlast, String.toList_append, List.getLast?_append] at hc
        obtain rfl : '/' = c := Option.some.inj hc
        decide
    | some d =>
        rw [hlast] at hc
        obtain rfl : d = c := Option.some.inj hc
        exact hprotocol d hlast

/-- Two written ranges of equal length are paired up port by port, and every specification that is
read gives consecutive container ports within the ports there are, for one protocol and one host
address, with no host ports, one host port or range as it is written, or consecutive host ports. -/
theorem parse_expands :
    (∀ (address : HostAddress) (published target more : Nat) (protocol : String), 1 ≤ more →
      published + more ≤ 65535 → target + more ≤ 65535 →
      (∀ c ∈ protocol.toList.getLast?, Text.isBlank c = false) →
      parse (rangesText address published target more protocol)
        = .ok ((List.range (more + 1)).map fun i =>
            { target := target + i
              published := some (portText (published + i))
              protocol := some protocol
              hostIp := some address.ip })) ∧
      ∀ text ports, parse text = .ok ports → IsExpansion text.toList ports := by
  constructor
  · intro address published target more protocol hmore hpublished htarget hprotocol
    have hexpand := expand_ranges address protocol hmore (Nat.lt_succ_of_le hpublished)
      (Nat.lt_succ_of_le htarget)
    rw [parse, trim_rangesText address published target more hprotocol, hexpand]
  · intro text ports h
    unfold parse at h
    split at h
    · rename_i expanded hexpand
      obtain rfl := Except.ok.inj h
      exact (isExpansion_of_expand hexpand).mono (Text.trim_infix text.toList)
    · cases h

/-- The bindings of two ports of a loopback address. -/
def loopbackPorts : List Port :=
  [⟨80, some "9000", some "udp", some "::1"⟩, ⟨81, some "9001", some "udp", some "::1"⟩]

/-- The colons of an address in brackets are not taken for those behind it. -/
theorem parse_expands_loopback :
    1 ≤ 1 ∧ 9000 + 1 ≤ 65535 ∧ 80 + 1 ≤ 65535 ∧
      (∀ c ∈ "udp".toList.getLast?, Text.isBlank c = false) ∧
      parse "[::1]:9000-9001:80-81/udp" = .ok loopbackPorts ∧
      IsExpansion "[::1]:9000-9001:80-81/udp".toList loopbackPorts := by
  have hprotocol : ∀ c ∈ "udp".toList.getLast?, Text.isBlank c = false := by
    have hlast : "udp".toList.getLast? = some 'p' := rfl
    intro c hc
    rw [hlast, Option.mem_some_iff] at hc
    rw [← hc]
    decide
  let address : HostAddress := ⟨"::1", true, by decide, by decide, by decide, fun _ => by decide⟩
  have hread : parse "[::1]:9000-9001:80-81/udp" = .ok loopbackPorts :=
    parse_expands.1 address 9000 80 1 "udp" (by decide) (by decide) (by decide) hprotocol
  exact ⟨by decide, by decide, by decide, hprotocol, hread, parse_expands.2 _ _ hread⟩

end Port
end Stackwright
