import HstoreKit.Proofs.Sql.Token
import HstoreKit.Settings.Basic
import Mathlib.Data.List.Basic

/-!
# Addresses

An address is written from five parts with signs between them, and nothing marks a sign that belongs
to a part. Here it is said which parts can be told apart in an address, and that no others can.

* `DatabaseSettings.Parted`: each sign stands at the first place where it can divide;
* `parts_eq_of_address_eq`: the parts of such settings can be read back from their address;
* `shared_of_not_parted`: all other settings share their address with settings of other parts;
* `address_determines_parts`: both for the settings that are accepted.
-/

namespace HstoreKit.DatabaseSettings

/-! ## The text -/

/-- What a connection is made to, and as whom. -/
def parts (d : DatabaseSettings) : String × String × String × UInt16 × String :=
  (d.username, d.password, d.host, d.port, d.database)

def digits (port : UInt16) : List Char :=
  Nat.toDigits 10 port.toNat

/-- What stands behind the host: its port, and the name of the database. -/
def ending (port : UInt16) (database : List Char) : List Char :=
  ':' :: (digits port ++ '/' :: database)

/-- An address behind its scheme. -/
def written (username password host : List Char) (port : UInt16) (database : List Char) :
    List Char :=
  username ++ ':' :: (password ++ '@' :: (host ++ ending port database))

theorem toList_address (d : DatabaseSettings) :
    d.address.toList = "postgresql://".toList ++ written d.username.toList d.password.toList
      d.host.toList d.port d.database.toList := by
  have hcolon : ":".toList = [':'] := rfl
  have hat : "@".toList = ['@'] := rfl
  have hslash : "/".toList = ['/'] := rfl
  unfold address
  simp only [String.toList_append, hcolon, hat, hslash, Nat.toString_eq_repr,
    Nat.toList_repr, List.append_assoc, List.cons_append, List.nil_append, written, ending, digits]

theorem address_eq_iff {d e : DatabaseSettings} : d.address = e.address ↔
    written d.username.toList d.password.toList d.host.toList d.port d.database.toList =
      written e.username.toList e.password.toList e.host.toList e.port e.database.toList := by
  rw [← String.toList_inj, toList_address, toList_address, List.append_cancel_left_eq]

/-- Where a sign occurs in neither of two texts, it ends both at the same place. -/
theorem append_cons_inj {c : Char} {a b x y : List Char} (ha : c ∉ a) (hb : c ∉ b)
    (h : a ++ c :: x = b ++ c :: y) : a = b ∧ x = y := by
  induction a generalizing b with
  | nil =>
    cases b with
    | nil => exact ⟨rfl, (List.cons.inj h).2⟩
    | cons e b =>
      obtain ⟨rfl, -⟩ := List.cons.inj h
      exact absurd List.mem_cons_self hb
  | cons d a ih =>
    cases b with
    | nil =>
      obtain ⟨rfl, -⟩ := List.cons.inj h
      exact absurd List.mem_cons_self ha
    | cons e b =>
      obtain ⟨rfl, hrest⟩ := List.cons.inj h
      rw [List.mem_cons, not_or] at ha hb
      obtain ⟨rfl, htail⟩ := ih ha.2 hb.2 hrest
      exact ⟨rfl, htail⟩

theorem digits_inj {p q : UInt16} (h : digits p = digits q) : p = q := by
  have hvalue := congrArg Sql.Token.value h
  rw [digits, digits, Sql.Token.value_toDigits, Sql.Token.value_toDigits] at hvalue
  exact UInt16.toNat_inj.1 hvalue

theorem not_mem_digits {c : Char} (h : c.isDigit = false) (p : UInt16) : c ∉ digits p := by
  intro hmem
  have hdigit := Nat.isDigit_of_mem_toDigits (by decide) (Nat.le_refl 10) hmem
  rw [h] at hdigit
  cases hdigit

/-! ## Parts that can be told apart -/

/-- A user name in which no colon follows the first character, a password without an at sign, and a
host in which no port with a slash stands behind the first character. -/
structure Parted (d : DatabaseSettings) : Prop where
  username : ':' ∉ d.username.toList.tail
  password : '@' ∉ d.password.toList
  host : ∀ (before : List Char) (port : UInt16) (behind : List Char),
    d.host.toList = before ++ ending port behind → port ≠ 0 → before = []

/-- Parts without any of the signs can be told apart, whatever the database is called. -/
theorem Parted.of_not_mem {d : DatabaseSettings} (husername : ':' ∉ d.username.toList)
    (hpassword : '@' ∉ d.password.toList) (hhost : '/' ∉ d.host.toList) : d.Parted where
  username := by
    intro h
    exact husername (List.mem_of_mem_tail h)
  password := hpassword
  host := by
    intro before port behind h
    rw [h] at hhost
    simp [ending] at hhost

/-- What a longer host adds to a shorter one of the same address is a port with a slash. -/
theorem exists_ending {port : UInt16} {database added behind : List Char}
    (h : ending port database = added ++ ':' :: behind) (hadded : added ≠ []) :
    ∃ more, added = ending port more := by
  obtain ⟨sign, more, rfl⟩ := List.exists_cons_of_ne_nil hadded
  obtain ⟨rfl, hmore⟩ := List.cons.inj h
  have hcolon := not_mem_digits (c := ':') rfl port
  have hdistinct : '/' ≠ ':' := by decide
  rcases List.append_eq_append_iff.1 hmore with ⟨rest, rfl, hrest⟩ | ⟨rest, hdigits, hrest⟩
  · cases rest with
    | nil => exact absurd (List.cons.inj hrest).1 hdistinct
    | cons slash rest =>
      obtain ⟨rfl, -⟩ := List.cons.inj hrest
      exact ⟨rest, rfl⟩
  · cases rest with
    | nil => exact absurd (List.cons.inj hrest).1.symm hdistinct
    | cons sign rest =>
      obtain ⟨rfl, -⟩ := List.cons.inj hrest
      rw [hdigits] at hcolon
      simp at hcolon

theorem ending_inj {p q : UInt16} {a b : List Char} (h : ending p a = ending q b) :
    p = q ∧ a = b := by
  have hslash := not_mem_digits (c := '/') rfl
  obtain ⟨hdigits, hbehind⟩ := append_cons_inj (hslash p) (hslash q) (List.cons.inj h).2
  exact ⟨digits_inj hdigits, hbehind⟩

/-- The longer of two hosts of the same address has a port with a slash behind the shorter one. -/
theorem added_eq_nil {host added behind database : List Char} {port : UInt16}
    (hhost : host ≠ []) (hport : port ≠ 0)
    (hparted : ∀ (before : List Char) (q : UInt16) (more : List Char),
      host ++ added = before ++ ending q more → q ≠ 0 → before = [])
    (h : ending port database = added ++ ':' :: behind) : added = [] := by
  by_contra hadded
  obtain ⟨more, hmore⟩ := exists_ending h hadded
  apply hhost
  apply hparted host port more ?_ hport
  rw [hmore]

theorem host_eq {d e : DatabaseSettings} (hd : d.Usable) (he : e.Usable) (hdp : d.Parted)
    (hep : e.Parted)
    (h : d.host.toList ++ ending d.port d.database.toList =
      e.host.toList ++ ending e.port e.database.toList) :
    d.host.toList = e.host.toList := by
  have hdhost : d.host.toList ≠ [] := by
    simpa using hd.host
  have hehost : e.host.toList ≠ [] := by
    simpa using he.host
  rcases List.append_eq_append_iff.1 h with ⟨added, heq, hending⟩ | ⟨added, heq, hending⟩
  · have hnil := added_eq_nil hdhost hd.port (heq ▸ hep.host) hending
    rw [heq, hnil, List.append_nil]
  · have hnil := added_eq_nil hehost he.port (heq ▸ hdp.host) hending
    rw [heq, hnil, List.append_nil]

/-- A user name has a first character, which may itself be a colon. -/
theorem Usable.exists_username {d : DatabaseSettings} (hd : d.Usable) :
    ∃ c, d.username.toList = c :: d.username.toList.tail := by
  have hne : d.username.toList ≠ [] := by
    simpa using hd.username
  obtain ⟨c, cs, hcs⟩ := List.exists_cons_of_ne_nil hne
  exact ⟨c, by rw [hcs, List.tail_cons]⟩

/-- The parts of an address, if they can be told apart in it, are those that it was written from. -/
theorem parts_eq_of_address_eq {d e : DatabaseSettings} (hd : d.Usable) (he : e.Usable)
    (hdp : d.Parted) (hep : e.Parted) (h : d.address = e.address) : d.parts = e.parts := by
  have hwritten := address_eq_iff.1 h
  obtain ⟨c, hc⟩ := hd.exists_username
  obtain ⟨c', hc'⟩ := he.exists_username
  rw [written, written, hc, hc'] at hwritten
  obtain ⟨rfl, hfirst⟩ := List.cons.inj hwritten
  obtain ⟨husername, hsecond⟩ := append_cons_inj hdp.username hep.username hfirst
  obtain ⟨hpassword, hthird⟩ := append_cons_inj hdp.password hep.password hsecond
  have hhost := host_eq hd he hdp hep hthird
  rw [hhost] at hthird
  obtain ⟨hport, hdatabase⟩ := ending_inj (List.append_cancel_left hthird)
  rw [← husername, ← hc] at hc'
  simp only [parts, String.toList_inj.1 hc', String.toList_inj.1 hpassword,
    String.toList_inj.1 hhost, hport, String.toList_inj.1 hdatabase]

/-! ## Parts that cannot -/

/-- Accepted settings other than `d` that an address of `d` stands for as well. -/
def Shared (d : DatabaseSettings) : Prop :=
  ∃ e : DatabaseSettings, e.Usable ∧ e.address = d.address ∧ e.parts ≠ d.parts

/-- A part that is cut at a sign is another part. -/
theorem ofList_ne_of_toList_eq {s : String} {cs rest : List Char} {c : Char}
    (h : s.toList = cs ++ c :: rest) : String.ofList cs ≠ s := by
  intro hs
  rw [← hs, String.toList_ofList] at h
  have hlength := congrArg List.length h
  rw [List.length_append, List.length_cons] at hlength
  omega

/-- The user name may end at a colon inside it. -/
theorem shared_of_username {d : DatabaseSettings} (hd : d.Usable) {c : Char} {a b : List Char}
    (h : d.username.toList = c :: a ++ ':' :: b) : d.Shared := by
  refine ⟨{ d with
    username := String.ofList (c :: a)
    password := String.ofList (b ++ ':' :: d.password.toList) }, ?_, ?_, ?_⟩
  · exact { hd with username := mt String.ofList_eq_empty_iff.1 (List.cons_ne_nil c a) }
  · rw [address_eq_iff, h]
    simp only [String.toList_ofList, written, List.append_assoc, List.cons_append]
  · intro hparts
    exact ofList_ne_of_toList_eq h (congrArg (fun p => p.1) hparts)

/-- The password may end at an at sign inside it. -/
theorem shared_of_password {d : DatabaseSettings} (hd : d.Usable) {a b : List Char}
    (h : d.password.toList = a ++ '@' :: b) : d.Shared := by
  refine ⟨{ d with
    password := String.ofList a
    host := String.ofList (b ++ '@' :: d.host.toList) }, ?_, ?_, ?_⟩
  · exact { hd with host := mt String.ofList_eq_empty_iff.1 (by simp) }
  · rw [address_eq_iff, h]
    simp only [String.toList_ofList, written, List.append_assoc, List.cons_append]
  · intro hparts
    exact ofList_ne_of_toList_eq h (congrArg (fun p => p.2.1) hparts)

/-- The host may end before a port inside it. -/
theorem shared_of_host {d : DatabaseSettings} (hd : d.Usable) {before behind : List Char}
    {port : UInt16} (h : d.host.toList = before ++ ending port behind) (hport : port ≠ 0)
    (hbefore : before ≠ []) : d.Shared := by
  refine ⟨{ d with
    host := String.ofList before
    port := port
    database := String.ofList (behind ++ ending d.port d.database.toList) }, ?_, ?_, ?_⟩
  · exact { hd with
      host := mt String.ofList_eq_empty_iff.1 hbefore
      port := hport
      database := mt String.ofList_eq_empty_iff.1 (by simp [ending]) }
  · rw [address_eq_iff, h]
    simp only [String.toList_ofList, written, ending, List.append_assoc, List.cons_append]
  · intro hparts
    exact ofList_ne_of_toList_eq h (congrArg (fun p => p.2.2.1) hparts)

theorem shared_of_not_parted {d : DatabaseSettings} (hd : d.Usable) (h : ¬ d.Parted) :
    d.Shared := by
  by_contra hshared
  apply h
  constructor
  · intro hmem
    obtain ⟨c, hc⟩ := hd.exists_username
    obtain ⟨a, b, htail⟩ := List.append_of_mem hmem
    rw [htail, ← List.cons_append] at hc
    exact hshared (shared_of_username hd hc)
  · intro hmem
    obtain ⟨a, b, hpassword⟩ := List.append_of_mem hmem
    exact hshared (shared_of_password hd hpassword)
  · intro before port behind hhost hport
    by_contra hbefore
    exact hshared (shared_of_host hd hhost hport hbefore)

/-- **Which addresses determine the settings.** Two accepted settings with parts that can be told
apart have the same address exactly when their parts are the same. Every other accepted settings
share their address with accepted settings of other parts. -/
theorem address_determines_parts {d : DatabaseSettings} (hd : d.check = .ok ()) :
    (d.Parted → ∀ e : DatabaseSettings, e.check = .ok () → e.Parted →
      (d.address = e.address ↔ d.parts = e.parts)) ∧
    (¬ d.Parted → ∃ e : DatabaseSettings, e.check = .ok () ∧ e.address = d.address ∧
      e.parts ≠ d.parts) := by
  have hdu := check_eq_ok_iff.1 hd
  constructor
  · intro hdp e he hep
    constructor
    · intro h
      exact parts_eq_of_address_eq hdu (check_eq_ok_iff.1 he) hdp hep h
    · intro h
      simp only [parts, Prod.mk.injEq] at h
      obtain ⟨husername, hpassword, hhost, hport, hdatabase⟩ := h
      rw [address_eq_iff, husername, hpassword, hhost, hport, hdatabase]
  · intro hdp
    obtain ⟨e, he, haddress, hparts⟩ := shared_of_not_parted hdu hdp
    exact ⟨e, check_eq_ok_iff.2 he, haddress, hparts⟩

/-- A password with an at sign in it. -/
def localStore : DatabaseSettings where
  host := "db"
  port := 5432
  database := "store"
  username := "app"
  password := "s@cret"

/-- Another host, whose name begins where the password of `localStore` has its sign. -/
def movedStore : DatabaseSettings where
  host := "cret@db"
  port := 5432
  database := "store"
  username := "app"
  password := "s"

/-- The host of `localStore` again, with a password that has no sign. -/
def plainStore : DatabaseSettings where
  host := "db"
  port := 5432
  database := "store"
  username := "app"
  password := "s"

theorem address_determines_parts_localStore :
    (movedStore.check = .ok () ∧ movedStore.Parted ∧ plainStore.check = .ok () ∧
      plainStore.Parted ∧ movedStore.address ≠ plainStore.address) ∧
    (localStore.check = .ok () ∧ ¬ localStore.Parted ∧ ∃ e : DatabaseSettings, e.check = .ok () ∧
      e.address = localStore.address ∧ e.parts ≠ localStore.parts) := by
  constructor
  · have hmoved : movedStore.Parted := .of_not_mem (by decide) (by decide) (by decide)
    have hplain : plainStore.Parted := .of_not_mem (by decide) (by decide) (by decide)
    have hiff := (address_determines_parts (d := movedStore) (by decide)).1 hmoved plainStore
      (by decide) hplain
    refine ⟨by decide, hmoved, by decide, hplain, ?_⟩
    intro h
    have hparts := hiff.1 h
    revert hparts
    decide
  · have hcheck : localStore.check = .ok () := by decide
    have hparted : ¬ localStore.Parted := by
      intro h
      have hpassword := h.password
      revert hpassword
      decide
    exact ⟨hcheck, hparted, (address_determines_parts hcheck).2 hparted⟩

/-- A sign in the password moves the border between the password and the host. -/
theorem localStore_address_eq_movedStore : localStore.check = .ok () ∧ movedStore.check = .ok () ∧
    localStore.address = movedStore.address ∧ localStore.parts ≠ movedStore.parts := by
  refine ⟨by decide, by decide, ?_, by decide⟩
  rw [address_eq_iff]
  decide

end HstoreKit.DatabaseSettings
