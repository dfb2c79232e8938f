import Sysload.Loader.Scp
import Mathlib.Data.List.TakeDrop
import Mathlib.Data.List.TakeWhile

/-!
# The URLs of the scp loader module (`cl_scp.c`)

`decode_parameters()` cuts `scp://[user[:password]@]host[:port]/path` at the first of each of the
characters at sign, colon and slash. In the user an at sign is written as `%40`.

Source: `src/comploader/cl_scp.c`, `decode_parameters`.

Results:
* `decodeParameters_scheme`: the function in two parts, for the user and for the host.
* `decodeAt_eq_self_iff`: which users mean what they are.
* **`decodeParameters_iff`**: for which URLs the function returns the parts.
-/

namespace Sysload.Scp

open UiControl (WaitStatus)

/-! ## URLs -/

/-- A user, as it is written in a URL, and a password. -/
structure UserInfo where
  user : CStr
  pw : Option CStr
  user_ne : user ≠ []
  user_at : '@' ∉ user
  user_colon : ':' ∉ user
  user_slash : '/' ∉ user
  pw_at : ∀ p ∈ pw, '@' ∉ p
  pw_slash : ∀ p ∈ pw, '/' ∉ p

/-- The parts of a URL. -/
structure ScpUrl where
  userinfo : Option UserInfo
  host : CStr
  port : Option CStr
  path : CStr
  host_ne : host ≠ []
  host_colon : ':' ∉ host
  host_at : '@' ∉ host
  host_slash : '/' ∉ host

/-- An optional part, with the character in front of it. -/
def optional (c : Char) (part : Option CStr) : CStr := (part.map (c :: ·)).getD []

/-- A URL from the host on. -/
def ScpUrl.hostText (u : ScpUrl) : CStr := u.host ++ optional ':' u.port ++ '/' :: u.path

/-- The text of a user. -/
def UserInfo.text (ui : UserInfo) : CStr := ui.user ++ optional ':' ui.pw

/-- The text of a URL. -/
def ScpUrl.text (u : ScpUrl) : CStr :=
  "scp://".toList ++ ((u.userinfo.map fun ui => ui.text ++ ['@']).getD [] ++ u.hostText)

/-- The at signs of a user are decoded. -/
def decodeAt : CStr → CStr
  | '%' :: '4' :: '0' :: user => '@' :: decodeAt user
  | c :: user => c :: decodeAt user
  | [] => []

/-- What a URL says, to a user with this login name. -/
def ScpUrl.parts (u : ScpUrl) (loginName : Option CStr) : Option SshParam :=
  ((u.userinfo.map fun ui => decodeAt ui.user).or loginName).map fun user =>
    ⟨user, u.userinfo.bind UserInfo.pw, u.host, u.port.getD "22".toList, u.path⟩

/-! ## The function in two parts -/

theorem cut_eq_some_iff {c : Char} {str before behind : CStr} :
    cut c str = some (before, behind) ↔ str = before ++ c :: behind ∧ c ∉ before := by
  unfold cut
  rw [List.span_eq_takeWhile_dropWhile]
  have happend := List.takeWhile_append_dropWhile (p := fun x => x != c) (l := str)
  have hnot : c ∉ str.takeWhile fun x => x != c := fun hmem => by
    have hne := List.mem_takeWhile_imp hmem
    exact absurd rfl (bne_iff_ne.mp hne)
  constructor
  · cases hrest : str.dropWhile (fun x => x != c) with
    | nil =>
      rintro ⟨⟩
    | cons d rest =>
      have hd := List.head_dropWhile_not (fun x => x != c) (l := str) (by rw [hrest]; simp)
      simp only [hrest, List.head_cons, bne_eq_false_iff_eq] at hd
      rintro ⟨⟩
      rw [hrest, hd] at happend
      exact ⟨happend.symm, hnot⟩
  · rintro ⟨rfl, hbefore⟩
    have hall : ∀ x ∈ before, (x != c) = true := fun x hx =>
      bne_iff_ne.mpr fun heq => hbefore (heq ▸ hx)
    rw [List.takeWhile_append_of_pos hall, List.dropWhile_append_of_pos hall,
      List.takeWhile_cons_of_neg (by simp), List.dropWhile_cons_of_neg (by simp), List.append_nil]

theorem cut_eq_none_iff {c : Char} {str : CStr} : cut c str = none ↔ c ∉ str := by
  constructor
  · intro h hmem
    obtain ⟨before, behind, heq, hbefore⟩ := List.eq_append_cons_of_mem hmem
    rw [cut_eq_some_iff.mpr ⟨heq, hbefore⟩] at h
    cases h
  · intro h
    refine Option.eq_none_iff_forall_ne_some.mpr fun parts hparts => h ?_
    rw [(cut_eq_some_iff.mp hparts).1]
    simp

/-- The user and the password, if there are any, and what is behind them. -/
def userPart (rest : CStr) : Option CStr × Option CStr × CStr :=
  match cut '@' rest with
  | some (userinfo, behind) =>
    match cut ':' userinfo with
    | some (user, pw) => (some user, some pw, behind)
    | none => (some userinfo, none, behind)
  | none => (none, none, rest)

/-- The host, the port, and the path. -/
def hostPart (rest : CStr) : Option (CStr × CStr × CStr) :=
  (cut '/' rest).map fun (hostport, path) =>
    let (host, port) := (cut ':' hostport).getD (hostport, "22".toList)
    (if hostport = [] then "localhost".toList else host, port, path)

/-- **The function behind the scheme**, for a user who is known. -/
theorem decodeParameters_scheme {loginName : Option CStr} {user rest : CStr}
    (h : (userPart rest).1.or loginName = some user) :
    decodeParameters loginName ("scp://".toList ++ rest) =
      .ok ((hostPart (userPart rest).2.2).map fun (host, port, path) =>
        ⟨user, (userPart rest).2.1, host, port, path⟩) := by
  have htake : ("scp://".toList ++ rest).take 6 = "scp://".toList := rfl
  have hdrop : ("scp://".toList ++ rest).drop 6 = rest := rfl
  unfold decodeParameters hostPart
  unfold userPart at h ⊢
  rw [htake, if_neg (not_not_intro rfl), hdrop]
  dsimp only
  revert h
  -- the three ways to the second part
  rcases cut '@' rest with _ | ⟨userinfo, behind⟩
  · rintro (rfl : loginName = some user)
    dsimp only
    rcases cut '/' rest with _ | ⟨hostport, path⟩
    · rfl
    · dsimp only [Option.map_some]
      cases cut ':' hostport <;> rfl
  · dsimp only
    rcases cut ':' userinfo with _ | ⟨name, pw⟩
    · rintro ⟨⟩
      dsimp only
      rcases cut '/' behind with _ | ⟨hostport, path⟩
      · rfl
      · dsimp only [Option.map_some]
        cases cut ':' hostport <;> rfl
    · rintro ⟨⟩
      dsimp only
      rcases cut '/' behind with _ | ⟨hostport, path⟩
      · rfl
      · dsimp only [Option.map_some]
        cases cut ':' hostport <;> rfl

/-! ## The parts of a URL -/

theorem mem_optional {c d : Char} {part : Option CStr} :
    d ∈ optional c part ↔ ∃ p ∈ part, d = c ∨ d ∈ p := by
  cases part with
  | none => simp [optional]
  | some p => simp [optional]

/-- The user and the password of a URL. -/
theorem userPart_text (ui : UserInfo) (rest : CStr) :
    userPart (ui.text ++ ['@'] ++ rest) = (some ui.user, ui.pw, rest) := by
  have hat : '@' ∉ ui.text := by
    rw [UserInfo.text, List.mem_append, mem_optional]
    rintro (hmem | ⟨p, hp, heq | hmem⟩)
    · exact ui.user_at hmem
    · exact absurd heq (by decide)
    · exact ui.pw_at p hp hmem
  have hcut : cut '@' (ui.text ++ ['@'] ++ rest) = some (ui.text, rest) :=
    cut_eq_some_iff.mpr ⟨List.append_assoc _ _ _, hat⟩
  have hcolon : cut ':' ui.text = ui.pw.map fun pw => (ui.user, pw) := by
    unfold UserInfo.text
    cases ui.pw with
    | none => exact cut_eq_none_iff.mpr (by simpa [optional] using ui.user_colon)
    | some pw => exact cut_eq_some_iff.mpr ⟨rfl, ui.user_colon⟩
  rw [userPart, hcut]
  dsimp only
  rw [hcolon]
  cases hpw : ui.pw with
  | none => simp [UserInfo.text, optional, hpw]
  | some pw => rfl

theorem userPart_host {rest : CStr} (h : '@' ∉ rest) : userPart rest = (none, none, rest) := by
  rw [userPart, cut_eq_none_iff.mpr h]

/-- Where an at sign is taken for the end of a password, there is one; and what is taken for the user
has no colon otherwise. -/
theorem userPart_at {rest : CStr} (h : '@' ∈ rest) (hpw : (userPart rest).2.1 = none) :
    ∃ before, rest = before ++ '@' :: (userPart rest).2.2 ∧ ':' ∉ before := by
  unfold userPart at hpw ⊢
  cases hcut : cut '@' rest with
  | none => exact absurd h (cut_eq_none_iff.mp hcut)
  | some parts =>
    obtain ⟨before, behind⟩ := parts
    simp only [hcut] at hpw ⊢
    cases hcolon : cut ':' before with
    | none => exact ⟨before, (cut_eq_some_iff.mp hcut).1, cut_eq_none_iff.mp hcolon⟩
    | some up =>
      simp only [hcolon] at hpw
      cases hpw

variable (u : ScpUrl)

/-- The host, the port and the path of a URL whose port has no slash. -/
theorem hostPart_text (h : ∀ p ∈ u.port, '/' ∉ p) :
    hostPart u.hostText = some (u.host, u.port.getD "22".toList, u.path) := by
  have hslash : '/' ∉ u.host ++ optional ':' u.port := by
    rw [List.mem_append, mem_optional]
    rintro (hmem | ⟨p, hp, heq | hmem⟩)
    · exact u.host_slash hmem
    · exact absurd heq (by decide)
    · exact h p hp hmem
  have hcut : cut '/' u.hostText = some (u.host ++ optional ':' u.port, u.path) :=
    cut_eq_some_iff.mpr ⟨rfl, hslash⟩
  have hcolon : cut ':' (u.host ++ optional ':' u.port) = u.port.map fun port => (u.host, port) := by
    cases u.port with
    | none => exact cut_eq_none_iff.mpr (by simpa [optional] using u.host_colon)
    | some port => exact cut_eq_some_iff.mpr ⟨rfl, u.host_colon⟩
  have hne : u.host ++ optional ':' u.port ≠ [] := List.append_ne_nil_of_left_ne_nil u.host_ne _
  rw [hostPart, hcut, Option.map_some]
  dsimp only
  rw [hcolon, if_neg hne]
  cases u.port with
  | none => simp [optional]
  | some port => rfl

/-- The path is what is behind the first slash. -/
theorem hostPart_eq_some {rest host port path : CStr}
    (h : hostPart rest = some (host, port, path)) :
    ∃ before, rest = before ++ '/' :: path ∧ '/' ∉ before := by
  obtain ⟨⟨before, path'⟩, hcut, heq⟩ := Option.map_eq_some_iff.mp h
  obtain rfl := (Prod.mk.inj (Prod.mk.inj heq).2).2
  exact ⟨before, cut_eq_some_iff.mp hcut⟩

/-! ## At signs in the user -/

/-- **A user means what it is** if there is no `%40` in it. -/
theorem decodeAt_eq_self_iff (user : CStr) : decodeAt user = user ↔ ¬ "%40".toList <:+: user := by
  induction user using decodeAt.induct with
  | case1 user _ =>
    refine iff_of_false (fun h => ?_) (not_not_intro ⟨[], user, rfl⟩)
    exact absurd (List.cons.inj h).1 (by decide)
  | case2 c user hother ih =>
    have hfront : ¬ "%40".toList <+: c :: user := by
      rintro ⟨rest, heq⟩
      obtain ⟨rfl, rfl⟩ := List.cons.inj heq.symm
      exact hother rest rfl rfl
    rw [decodeAt, List.infix_cons_iff, not_or, List.cons.injEq]
    · exact ⟨fun h => ⟨hfront, ih.mp h.2⟩, fun h => ⟨rfl, ih.mpr h.2⟩⟩
    · exact hother
  | case3 => decide

/-! ## Which URLs are decoded -/

/-- Each character that ends a part of the URL is in its place, and there is nothing to decode. -/
def ScpUrl.Plain : Prop :=
  (∀ p ∈ u.port, '/' ∉ p) ∧
    match u.userinfo with
    | some ui => ¬ "%40".toList <:+: ui.user
    | none => '@' ∉ u.path ∧ ∀ p ∈ u.port, '@' ∉ p

theorem at_notMem_hostText :
    '@' ∉ u.hostText ↔ '@' ∉ u.path ∧ ∀ p ∈ u.port, '@' ∉ p := by
  rw [ScpUrl.hostText, List.mem_append, List.mem_append, mem_optional, List.mem_cons]
  constructor
  · intro h
    exact ⟨fun hmem => h (.inr (.inr hmem)), fun p hp hmem => h (.inl (.inr ⟨p, hp, .inr hmem⟩))⟩
  · rintro ⟨hpath, hport⟩ ((hmem | ⟨p, hp, heq | hmem⟩) | heq | hmem)
    · exact u.host_at hmem
    · exact absurd heq (by decide)
    · exact hport p hp hmem
    · exact absurd heq (by decide)
    · exact hpath hmem

/-- The path of a URL is returned only if its port has no slash. -/
theorem port_of_hostPart {host port : CStr} (h : hostPart u.hostText = some (host, port, u.path)) :
    ∀ p ∈ u.port, '/' ∉ p := by
  obtain ⟨before, heq, hbefore⟩ := hostPart_eq_some h
  have hlen : u.host ++ optional ':' u.port = before :=
    List.append_inj_left' heq (by simp)
  intro p hp hmem
  exact hbefore (hlen ▸ List.mem_append_right _ (mem_optional.mpr ⟨p, hp, .inr hmem⟩))

/-- The path of a URL is not what is behind an at sign in its port or path, where there is no
password. -/
theorem at_of_userPart {host port : CStr} (hpw : (userPart u.hostText).2.1 = none)
    (h : hostPart (userPart u.hostText).2.2 = some (host, port, u.path)) : '@' ∉ u.hostText := by
  intro hat
  obtain ⟨before, heq, hcolon⟩ := userPart_at hat hpw
  obtain ⟨behind, hbehind, -⟩ := hostPart_eq_some h
  -- in front of the slash of the path
  have hfront : u.host ++ optional ':' u.port = before ++ '@' :: behind := by
    rw [hbehind, ScpUrl.hostText] at heq
    refine List.append_cancel_right (heq.trans ?_)
    rw [List.append_assoc, List.cons_append]
  cases hport : u.port with
  | none =>
    rw [hport, optional, Option.map_none, Option.getD_none, List.append_nil] at hfront
    exact u.host_at (hfront ▸ by simp)
  | some p =>
    rw [hport, optional, Option.map_some, Option.getD_some] at hfront
    rcases List.append_eq_append_iff.mp hfront with ⟨mid, hmid, hrest⟩ | ⟨mid, hmid, hrest⟩
    · cases mid with
      | nil => exact absurd (List.cons.inj hrest).1 (by decide)
      | cons c mid =>
        obtain ⟨rfl, -⟩ := List.cons.inj hrest
        exact hcolon (hmid ▸ by simp)
    · cases mid with
      | nil => exact absurd (List.cons.inj hrest).1 (by decide)
      | cons c mid =>
        obtain ⟨rfl, -⟩ := List.cons.inj hrest
        exact u.host_at (hmid ▸ by simp)

/-- **The parts of a URL are returned** if and only if its port has no slash, and its user has no
`%40`; where it has none, there is no at sign in its port and path. -/
theorem decodeParameters_iff {loginName : Option CStr} {param : SshParam}
    (h : u.parts loginName = some param) :
    decodeParameters loginName u.text = .ok (some param) ↔ u.Plain := by
  obtain ⟨user, huser, rfl⟩ := Option.map_eq_some_iff.mp h
  unfold ScpUrl.text ScpUrl.Plain
  cases hinfo : u.userinfo with
  | some ui =>
    have hpart := userPart_text ui u.hostText
    rw [hinfo, Option.map_some, Option.some_or, Option.some.injEq] at huser
    have hname : (userPart (ui.text ++ ['@'] ++ u.hostText)).1.or loginName = some ui.user := by
      rw [hpart, Option.some_or]
    rw [Option.map_some, Option.getD_some, decodeParameters_scheme hname, Except.ok.injEq, hpart]
    constructor
    · intro hmap
      obtain ⟨⟨host, port, path⟩, hhost, heq⟩ := Option.map_eq_some_iff.mp hmap
      obtain ⟨hdecode, -, -, -, rfl⟩ := SshParam.mk.inj heq
      exact ⟨port_of_hostPart u hhost, (decodeAt_eq_self_iff _).mp (huser.trans hdecode.symm)⟩
    · rintro ⟨hport, hplain⟩
      rw [hostPart_text u hport, ← huser, (decodeAt_eq_self_iff _).mpr hplain]
      rfl
  | none =>
    rw [hinfo, Option.map_none, Option.none_or] at huser
    rw [Option.map_none, Option.getD_none, List.nil_append, ← at_notMem_hostText]
    constructor
    · intro hok
      obtain ⟨user', huser'⟩ : ∃ user', (userPart u.hostText).1.or loginName = some user' := by
        rw [huser]
        cases (userPart u.hostText).1 with
        | none => exact ⟨user, rfl⟩
        | some name => exact ⟨name, rfl⟩
      rw [decodeParameters_scheme huser', Except.ok.injEq] at hok
      obtain ⟨⟨host, port, path⟩, hhost, heq⟩ := Option.map_eq_some_iff.mp hok
      obtain ⟨-, hpw, -, -, rfl⟩ := SshParam.mk.inj heq
      have hat := at_of_userPart u hpw hhost
      rw [userPart_host hat] at hhost
      exact ⟨port_of_hostPart u hhost, hat⟩
    · rintro ⟨hport, hat⟩
      have hpart := userPart_host hat
      have hname : (userPart u.hostText).1.or loginName = some user := by
        rw [hpart, Option.none_or, huser]
      rw [decodeParameters_scheme hname, hpart, hostPart_text u hport]
      rfl

/-- The example of the documentation, with another host and user. -/
theorem decodeParameters_iff_named :
    let u : ScpUrl := ⟨some ⟨"my_name".toList, some "my_secret".toList, by decide, by decide,
      by decide, by decide, by simp, by simp⟩, "h".toList, some "2222".toList, "f".toList,
      by decide, by decide, by decide, by decide⟩
    u.text = "scp://my_name:my_secret@h:2222/f".toList ∧
      decodeParameters none u.text = .ok (some ⟨"my_name".toList, some "my_secret".toList,
        "h".toList, "2222".toList, "f".toList⟩) := by
  intro u
  have hplain : u.Plain := ⟨by simp [u], (decodeAt_eq_self_iff _).mp rfl⟩
  have hparts : u.parts none = some ⟨"my_name".toList, some "my_secret".toList, "h".toList,
      "2222".toList, "f".toList⟩ := by
    decide
  exact ⟨by decide, (decodeParameters_iff u hparts).mpr hplain⟩

/-- A user with an at sign is returned as it is written. -/
theorem decodeParameters_percent :
    let u : ScpUrl := ⟨some ⟨"my_name%40ibm.com".toList, none, by decide, by decide, by decide,
      by decide, by simp, by simp⟩, "h".toList, none, "f".toList, by decide, by decide, by decide,
      by decide⟩
    u.text = "scp://my_name%40ibm.com@h/f".toList ∧
      decodeParameters (some "root".toList) u.text =
        .ok (some ⟨"my_name%40ibm.com".toList, none, "h".toList, "22".toList, "f".toList⟩) ∧
      decodeParameters (some "root".toList) u.text ≠ .ok (u.parts (some "root".toList)) := by
  decide

end Sysload.Scp
