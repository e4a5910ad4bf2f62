import Amnezia.Ipc.Launches
import Mathlib

/-! # The proxy that tun2socks reads -/

namespace Amnezia.Ipc

structure Proxy where
  scheme : Text
  endpoint : Text × Option Nat
  deriving DecidableEq

def delimits (char : Char) : Bool := char = '/' || char = '?' || char = '#'

def cutAuthority (text : Text) : Text := text.takeWhile fun char => !delimits char

def withoutUserInfo (authority : Text) : Text := authority.rtakeWhile (· ≠ '@')

def stripBrackets (host : Text) : Text :=
  if host.head? = some '[' ∧ host.getLast? = some ']' then host.tail.dropLast else host

def readEndpoint (endpoint : Text) : Text × Option Nat :=
  if ':' ∈ endpoint
  then (stripBrackets (endpoint.rdropWhile (· ≠ ':')).dropLast, decimal (endpoint.rtakeWhile (· ≠ ':')))
  else (stripBrackets endpoint, none)

-- `refuses` stands for the other errors of the URL parser, such as an escape that is not one.
def readProxy (refuses : Text → Bool) (text : Text) : Option Proxy :=
  let scheme := text.takeWhile (· ≠ ':')
  let rest := text.drop scheme.length
  if refuses text ∨ !scheme.all Char.isAlphanum ∨ !(literal "://").isPrefixOf rest then none
  else some ⟨scheme.map Char.toLower, readEndpoint (withoutUserInfo (cutAuthority (rest.drop 3)))⟩

def checkedUserInfo (proxy : Text) : Text := ((splitAtLastAt proxy).elim [] Prod.fst).drop 9

def checkedPort (platform : Platform) (proxy : Text) : Int :=
  (platform.strictUrl (literal "socks5://" ++ withoutUserInfo proxy)).port

def isLoopbackHost (host : Text) : Bool := host = literal "127.0.0.1" || host = literal "::1"

def IsLoopback (port : Int) (endpoint : Text × Option Nat) : Prop :=
  isLoopbackHost endpoint.1 = true ∧ endpoint.2.map Int.ofNat = some port

def ReadsLocal (platform : Platform) (refuses : Text → Bool) (proxy : Text) : Prop :=
  ∀ read, readProxy refuses proxy = some read →
    read.scheme = literal "socks5" ∧ IsLoopback (checkedPort platform proxy) read.endpoint

def WrittenPlainly (normal : Text → Text) (proxy : Text) : Prop :=
  (checkedUserInfo proxy).any delimits = false ∧
    normal (readEndpoint (withoutUserInfo proxy)).1 = (readEndpoint (withoutUserInfo proxy)).1

def LoopbackBeforeDelimiter (proxy : Text) : Prop :=
  (checkedUserInfo proxy).any delimits = true ∧
    isLoopbackHost (readEndpoint (withoutUserInfo (cutAuthority (checkedUserInfo proxy)))).1 = true ∧
    (readEndpoint (withoutUserInfo (cutAuthority (checkedUserInfo proxy)))).2 =
      (readEndpoint (withoutUserInfo proxy)).2

def endpointUrl (platform : Platform) (endpoint : Text) : Url := platform.strictUrl (literal "socks5://" ++ endpoint)

/-- What `QUrl` in strict mode documents of `socks5://` before a text without user info: path, query and fragment
begin at the delimiters, a port follows the last colon, and the host is given in its normal form. -/
structure ReadsEndpoint (platform : Platform) (normal : Text → Text) : Prop where
  authority : ∀ endpoint, '@' ∉ endpoint → (endpointUrl platform endpoint).isValid = true →
    (endpointUrl platform endpoint).path = [] → (endpointUrl platform endpoint).hasQuery = false →
    (endpointUrl platform endpoint).hasFragment = false → endpoint.any delimits = false
  port : ∀ endpoint, '@' ∉ endpoint → endpoint.any delimits = false →
    (endpointUrl platform endpoint).isValid = true → 0 ≤ (endpointUrl platform endpoint).port →
    ∃ host digits, endpoint = host ++ ':' :: digits ∧ ':' ∉ digits ∧
      (decimal digits).map Int.ofNat = some (endpointUrl platform endpoint).port ∧
      (endpointUrl platform endpoint).host = normal (stripBrackets host)
  loopback : normal (literal "127.0.0.1") = literal "127.0.0.1" ∧ normal (literal "::1") = literal "::1"

variable {platform : Platform} {files : FileSystem} {arguments : List Text}

theorem splitAtLastAt_some {text front endpoint : Text} (split : splitAtLastAt text = some (front, endpoint)) :
    text = front ++ '@' :: endpoint ∧ '@' ∉ endpoint := by
  unfold splitAtLastAt at split
  split_ifs at split with listed
  obtain ⟨rfl, rfl⟩ := Prod.mk.inj (Option.some.inj split)
  have filled : text.rdropWhile (· ≠ '@') ≠ [] := fun empty => by
    simpa using List.rdropWhile_eq_nil_iff.mp empty '@' listed
  have last : (text.rdropWhile (· ≠ '@')).getLast filled = '@' := by
    simpa using List.rdropWhile_last_not _ text filled
  refine ⟨?_, fun inside => by simpa using List.mem_rtakeWhile_imp inside⟩
  have front := List.dropLast_append_getLast filled
  rw [last] at front
  rw [← List.singleton_append, ← List.append_assoc, front, List.rdropWhile_append_rtakeWhile]

theorem foldCase_eq_self {char : Char} (plain : ¬ (foldCase char).isAlpha) : foldCase char = char := by
  unfold foldCase at plain ⊢
  split_ifs at plain ⊢
  · exact absurd rfl plain
  · exact absurd rfl plain
  · rw [Char.isAlpha_toLower_eq_isAlpha, Char.isAlpha, Bool.or_eq_true, not_or] at plain
    exact Char.toLower_eq_of_not_isUpper plain.1

theorem toLower_of_foldCase {char : Char} (plain : char.isAlphanum) : char.toLower = foldCase char := by
  unfold foldCase
  split_ifs with long kelvin
  · exact absurd plain (by rw [show char = Char.ofNat 0x17F from Char.toNat_inj.mp long]; decide)
  · exact absurd plain (by rw [show char = Char.ofNat 0x212A from Char.toNat_inj.mp kelvin]; decide)
  · rfl

theorem startsWithIgnoringCase_socks {text : Text} (starts : startsWithIgnoringCase text (literal "socks5://")) :
    ∃ scheme rest, text = scheme ++ literal "://" ++ rest ∧ scheme.map foldCase = literal "socks5" := by
  obtain ⟨back, whole⟩ := List.isPrefixOf_iff_prefix.mp starts
  rw [show literal "socks5://" = literal "socks5" ++ literal "://" from rfl, List.append_assoc] at whole
  obtain ⟨scheme, others, rfl, folded, whole⟩ := List.map_eq_append_iff.mp whole.symm
  obtain ⟨slashes, rest, rfl, same, -⟩ := List.map_eq_append_iff.mp whole
  refine ⟨scheme, rest, ?_, folded⟩
  have plain : ∀ char ∈ slashes.map foldCase, ¬ char.isAlpha := by
    rw [same]
    simpa using (by decide +kernel : (literal "://").all (fun char => !char.isAlpha))
  have kept : slashes.map foldCase = slashes.map id :=
    List.map_congr_left fun char listed => foldCase_eq_self (plain _ (List.mem_map_of_mem listed))
  rw [← same, kept, List.map_id, List.append_assoc]

theorem checkProxy_ok {proxy : Text} (accepted : checkProxy platform proxy = .ok ()) :
    ∃ scheme endpoint, proxy = scheme ++ literal "://" ++ (checkedUserInfo proxy ++ '@' :: endpoint) ∧
      scheme.map foldCase = literal "socks5" ∧ '@' ∉ endpoint ∧
      isLoopbackEndpoint (endpointUrl platform endpoint) = true := by
  unfold checkProxy at accepted
  split at accepted
  · next before endpoint split =>
    obtain ⟨whole, clean⟩ := splitAtLastAt_some split
    split_ifs at accepted with refused remote
    simp only [Bool.not_eq_true', not_or, Bool.not_eq_false, not_le] at refused
    obtain ⟨scheme, rest, parts, folded⟩ := startsWithIgnoringCase_socks refused.1
    have size : (scheme ++ literal "://").length = 9 := by
      rw [List.length_append, ← List.length_map foldCase, folded]
      rfl
    obtain ⟨front, rfl⟩ := List.prefix_of_prefix_length_le (parts ▸ List.prefix_append ..)
      (whole ▸ List.prefix_append ..) (size.trans_le refused.2.le)
    have info : checkedUserInfo proxy = front := by
      rw [checkedUserInfo, split, Option.elim_some, ← size, List.drop_left]
    refine ⟨scheme, endpoint, ?_, folded, clean, by simpa [endpointUrl] using remote⟩
    rw [info, whole, List.append_assoc]
  · cases accepted

theorem checkTun2Socks_ok (accepted : checkTun2Socks platform arguments = .ok ()) :
    ∃ device proxy, arguments = [literal "-device", device, literal "-proxy", proxy] ∧
      checkProxy platform proxy = .ok () := by
  unfold checkTun2Socks at accepted
  split at accepted
  · next flag device proxyFlag proxy =>
    split_ifs at accepted with refused badDevice
    simp only [ne_eq, not_or, not_not] at refused
    obtain ⟨rfl, rfl⟩ := refused
    exact ⟨device, proxy, rfl, accepted⟩
  · cases accepted

theorem rtakeWhile_append {front back : Text} {separator : Char} (clean : separator ∉ back) :
    (front ++ separator :: back).rtakeWhile (· ≠ separator) = back := by
  have kept : back.reverse.takeWhile (· ≠ separator) = back.reverse :=
    List.takeWhile_eq_self_iff.mpr fun char listed =>
      decide_eq_true fun here => clean (here ▸ List.mem_reverse.mp listed)
  rw [List.rtakeWhile, List.reverse_append, List.reverse_cons, List.append_assoc,
    List.takeWhile_append, kept, if_pos rfl, List.singleton_append, List.takeWhile_cons_of_neg (by simp),
    List.append_nil, List.reverse_reverse]

theorem withoutUserInfo_append {front endpoint : Text} (clean : '@' ∉ endpoint) :
    withoutUserInfo (front ++ '@' :: endpoint) = endpoint :=
  rtakeWhile_append clean

theorem readEndpoint_append {host digits : Text} (clean : ':' ∉ digits) :
    readEndpoint (host ++ ':' :: digits) = (stripBrackets host, decimal digits) := by
  have whole : (host ++ ':' :: digits).rdropWhile (· ≠ ':') ++ (host ++ ':' :: digits).rtakeWhile (· ≠ ':') = _ :=
    List.rdropWhile_append_rtakeWhile
  rw [rtakeWhile_append clean] at whole
  have front : (host ++ ':' :: digits).rdropWhile (· ≠ ':') = host ++ [':'] :=
    List.append_cancel_right (whole.trans (List.append_cons host ':' digits))
  rw [readEndpoint, if_pos (by simp), front, List.dropLast_concat, rtakeWhile_append clean]

-- The endpoint that tun2socks connects to is the checked one only when no delimiter stands before the last `@`.
theorem withoutUserInfo_cutAuthority {front endpoint : Text} (clean : '@' ∉ endpoint) :
    withoutUserInfo (cutAuthority (front ++ '@' :: endpoint)) =
      if front.any delimits then withoutUserInfo (cutAuthority front) else cutAuthority endpoint := by
  split_ifs with early
  · have short : (front.takeWhile fun char => !delimits char).length ≠ front.length := fun whole => by
      have kept := List.takeWhile_eq_self_iff.mp ((List.takeWhile_prefix _).eq_of_length whole)
      obtain ⟨char, listed, found⟩ := List.any_eq_true.mp early
      simpa [found] using kept char listed
    rw [cutAuthority, List.takeWhile_append, if_neg short, cutAuthority]
  · have late : ∀ char ∈ front, (!delimits char) = true := by simpa using early
    rw [cutAuthority, List.takeWhile_append_of_pos late, List.takeWhile_cons_of_pos (by decide),
      withoutUserInfo_append fun inside => clean (List.takeWhile_subset _ inside), cutAuthority]

theorem readProxy_append (refuses : Text → Bool) {scheme rest : Text}
    (folded : scheme.map foldCase = literal "socks5") :
    readProxy refuses (scheme ++ literal "://" ++ rest) =
      if refuses (scheme ++ literal "://" ++ rest) ∨ !scheme.all Char.isAlphanum then none
      else some ⟨literal "socks5", readEndpoint (withoutUserInfo (cutAuthority rest))⟩ := by
  have early : ∀ char ∈ scheme, decide (char ≠ ':') = true := fun char listed => decide_eq_true fun here => by
    have inside := List.mem_map_of_mem (f := foldCase) listed
    rw [folded, here] at inside
    revert inside
    decide
  have before : (scheme ++ literal "://" ++ rest).takeWhile (· ≠ ':') = scheme := by
    rw [List.append_assoc, List.takeWhile_append_of_pos early]
    exact List.append_nil scheme
  have after : (scheme ++ literal "://" ++ rest).drop scheme.length = literal "://" ++ rest := by
    rw [List.append_assoc, List.drop_left]
  have starts : (literal "://").isPrefixOf (literal "://" ++ rest) :=
    List.isPrefixOf_iff_prefix.mpr (List.prefix_append ..)
  simp only [readProxy, before, after, starts, Bool.not_true, Bool.false_eq_true, or_false]
  split_ifs with failed
  · rfl
  · simp only [not_or, Bool.not_eq_true', Bool.not_eq_false, List.all_eq_true] at failed
    rw [List.map_congr_left fun char listed => toLower_of_foldCase (failed.2 char listed), folded]
    rfl

theorem ReadsEndpoint.checked {normal : Text → Text} {endpoint : Text} (qurl : ReadsEndpoint platform normal)
    (clean : '@' ∉ endpoint) (passed : isLoopbackEndpoint (endpointUrl platform endpoint) = true) :
    cutAuthority endpoint = endpoint ∧
      (readEndpoint endpoint).2.map Int.ofNat = some (endpointUrl platform endpoint).port ∧
      (isLoopbackHost (readEndpoint endpoint).1 = true ↔
        normal (readEndpoint endpoint).1 = (readEndpoint endpoint).1) := by
  simp only [isLoopbackEndpoint, Bool.and_eq_true, decide_eq_true_eq, Bool.not_eq_true'] at passed
  obtain ⟨⟨⟨⟨⟨⟨valid, host⟩, low⟩, -⟩, path⟩, query⟩, fragment⟩ := passed
  have whole := qurl.authority endpoint clean valid path query fragment
  obtain ⟨name, digits, rfl, apart, port, normalized⟩ := qurl.port endpoint clean whole valid (by omega)
  refine ⟨?_, ?_, ?_⟩
  · refine List.takeWhile_eq_self_iff.mpr fun char listed => ?_
    simpa using List.any_eq_false.mp whole char listed
  · rw [readEndpoint_append apart]
    exact port
  · rw [readEndpoint_append apart]
    refine ⟨fun literally => ?_, fun fixed => ?_⟩
    · simp only [isLoopbackHost, Bool.or_eq_true, decide_eq_true_eq] at literally
      rcases literally with same | same
      · rw [same]
        exact qurl.loopback.1
      · rw [same]
        exact qurl.loopback.2
    · rw [normalized, fixed] at host
      exact host

/-- Of an accepted argument list tun2socks reads a local proxy, or none, exactly when its URL parser fails, or no
delimiter stands before the last `@` and the host after it is written in its normal form, or the authority before
the first delimiter is itself a loopback host with the port that stands after the last `@`. -/
theorem accepted_proxy_is_local_iff (refuses : Text → Bool) {normal : Text → Text}
    (qurl : ReadsEndpoint platform normal) {result : List Text}
    (accepted : validateProcessArguments platform files .tun2Socks arguments = .ok result) :
    ∃ proxy, arguments[3]? = some proxy ∧
      (ReadsLocal platform refuses proxy ↔
        refuses proxy ∨ !(proxy.take 6).all Char.isAlphanum ∨ WrittenPlainly normal proxy ∨
          LoopbackBeforeDelimiter proxy) := by
  obtain ⟨_, ⟨⟨⟩, _⟩ | ⟨_, checked⟩ | ⟨⟨⟩, _⟩⟩ := validateProcessArguments_ok accepted
  obtain ⟨device, proxy, rfl, proxyChecked⟩ := checkTun2Socks_ok checked
  refine ⟨proxy, rfl, ?_⟩
  obtain ⟨scheme, endpoint, parts, folded, clean, passed⟩ := checkProxy_ok proxyChecked
  obtain ⟨whole, port, literally⟩ := qurl.checked clean passed
  have six : proxy.take 6 = scheme := by
    have size : scheme.length = 6 := by rw [← List.length_map foldCase, folded]; rfl
    rw [parts, List.append_assoc, ← size, List.take_left]
  have tail : withoutUserInfo proxy = endpoint := by rw [parts, ← List.append_assoc, withoutUserInfo_append clean]
  have same : some (checkedPort platform proxy) = (readEndpoint endpoint).2.map Int.ofNat := by
    rw [port, checkedPort, tail]
    rfl
  have read : IsLoopback (checkedPort platform proxy)
      (readEndpoint (withoutUserInfo (cutAuthority (checkedUserInfo proxy ++ '@' :: endpoint)))) ↔
      WrittenPlainly normal proxy ∨ LoopbackBeforeDelimiter proxy := by
    rw [withoutUserInfo_cutAuthority clean, whole, IsLoopback, same, WrittenPlainly, LoopbackBeforeDelimiter, tail]
    cases early : (checkedUserInfo proxy).any delimits with
    | true =>
      simp [Option.map_inj_right fun _ _ => Int.ofNat.inj]
    | false => simp [literally]
  rw [ReadsLocal, show readProxy refuses proxy = _ from parts ▸ readProxy_append refuses folded, six, ← read]
  split_ifs with failed
  · exact iff_of_true (fun read given => nomatch given) (or_assoc.mp (.inl failed))
  · rw [← or_assoc, or_iff_right failed]
    exact ⟨fun reads => (reads _ rfl).2, fun loopback other given => Option.some.inj given ▸ ⟨rfl, loopback⟩⟩

open IpcServerProcess (linuxPlatform clientFiles)

def proxyArguments (proxy : String) : List Text :=
  [literal "-device", literal "tun://t", literal "-proxy", literal proxy]

theorem linuxPlatform_readsEndpoint : ReadsEndpoint linuxPlatform id := by
  have parts {endpoint : Text} (valid : (endpointUrl linuxPlatform endpoint).isValid = true) :
      ∃ digits port, endpoint = literal "127.0.0.1" ++ ':' :: digits ∧ decimal digits = some port ∧
        (endpointUrl linuxPlatform endpoint).port = port := by
    simp only [endpointUrl, linuxPlatform, Bool.and_eq_true, List.isPrefixOf_iff_prefix] at valid ⊢
    obtain ⟨starts, number⟩ := valid
    have split : literal "socks5://127.0.0.1:" = literal "socks5://" ++ literal "127.0.0.1:" := rfl
    rw [split, List.prefix_append_right_inj] at starts
    obtain ⟨digits, rfl⟩ := starts
    obtain ⟨port, found⟩ := Option.isSome_iff_exists.mp number
    refine ⟨digits, port, rfl, found, ?_⟩
    rw [found]
    rfl
  have numeric {digits : Text} {port : Nat} (number : decimal digits = some port) :
      ∀ char ∈ digits, char.isDigit = true := by
    unfold decimal at number
    split_ifs at number with refused
    simp only [not_or, Bool.not_eq_true', Bool.not_eq_false, List.all_eq_true] at refused
    exact refused.2
  have plain {digits : Text} {port : Nat} (number : decimal digits = some port) (char : Char)
      (other : char.isDigit = false) : char ∉ digits := fun listed => by simp [numeric number char listed] at other
  refine ⟨fun endpoint _ valid _ _ _ => ?_, fun endpoint _ _ valid _ => ?_, rfl, rfl⟩
  · obtain ⟨digits, port, rfl, number, -⟩ := parts valid
    rw [List.any_append, List.any_cons, (by decide : (literal "127.0.0.1").any delimits = false),
      (by decide : delimits ':' = false), Bool.false_or, Bool.false_or, List.any_eq_false]
    intro char listed delimiter
    simp only [delimits, Bool.or_eq_true, decide_eq_true_eq] at delimiter
    rcases delimiter with (rfl | rfl) | rfl
    all_goals exact plain number _ (by decide) listed
  · obtain ⟨digits, port, rfl, number, same⟩ := parts valid
    refine ⟨literal "127.0.0.1", digits, rfl, plain number ':' (by decide), ?_, rfl⟩
    rw [number, same]
    rfl

theorem accepted_proxy_is_local_at_user :
    ReadsLocal linuxPlatform (fun _ => false) (literal "socks5://u@127.0.0.1:1080") := by
  obtain ⟨proxy, here, local_iff⟩ := accepted_proxy_is_local_iff (fun _ => false) linuxPlatform_readsEndpoint
    (show validateProcessArguments linuxPlatform (clientFiles []) .tun2Socks
        (proxyArguments "socks5://u@127.0.0.1:1080") =
      .ok (proxyArguments "socks5://u@127.0.0.1:1080") by decide +kernel)
  obtain rfl := Option.some.inj here
  exact local_iff.mpr (.inr (.inr (.inl ⟨by decide +kernel, rfl⟩)))

theorem remote_proxy_is_accepted :
    validateProcessArguments linuxPlatform (clientFiles []) .tun2Socks
        (proxyArguments "socks5://evil:9/@127.0.0.1:1080") =
        .ok (proxyArguments "socks5://evil:9/@127.0.0.1:1080") ∧
      readProxy (fun _ => false) (literal "socks5://evil:9/@127.0.0.1:1080") =
        some ⟨literal "socks5", literal "evil", some 9⟩ ∧
      ¬ ReadsLocal linuxPlatform (fun _ => false) (literal "socks5://evil:9/@127.0.0.1:1080") := by
  have read : readProxy (fun _ => false) (literal "socks5://evil:9/@127.0.0.1:1080") =
      some ⟨literal "socks5", literal "evil", some 9⟩ := by decide +kernel
  refine ⟨by decide +kernel, read, fun reads => ?_⟩
  obtain ⟨-, host, -⟩ := reads _ read
  revert host
  decide +kernel

end Amnezia.Ipc
