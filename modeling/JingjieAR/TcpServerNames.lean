import JingjieAR.ResponseFraming
import JingjieAR.TcpServerModel

/-! The names of connections. `buf` is long enough for the address of the server and any `int`, so
that different connections have different names. -/
namespace JingjieAR

open HttpResponse (decimal)

theorem length_decimal {n k : ℕ} (hk : 0 < k) (h : n < 10^k) : (decimal n).length ≤ k := by
  rw [ascii_toString, List.length_map]
  exact (Nat.length_toDigits_le_iff (by decide) hk).mpr h

theorem InetAddress.length_toIpPort (a : InetAddress) : a.toIpPort.length ≤ 21 := by
  have hbyte (b : UInt8) : (decimal b.toNat).length ≤ 3 := by
    have hb := b.toNat_lt
    exact length_decimal (by decide) (by omega)
  have hport : (decimal a.port.toNat).length ≤ 5 := by
    have hp := a.port.toNat_lt
    exact length_decimal (by decide) (by omega)
  have hdot : (ascii ".").length = 1 := rfl
  have hcolon : (ascii ":").length = 1 := rfl
  have h₁ := hbyte a.ip.1
  have h₂ := hbyte a.ip.2.1
  have h₃ := hbyte a.ip.2.2.1
  have h₄ := hbyte a.ip.2.2.2
  simp only [toIpPort, List.length_append, hdot, hcolon]
  omega

namespace TcpServer

variable {s : TcpServer}

/-- Nothing of the name is cut off. -/
theorem connName_eq {id : ℕ} (h : id < 2^31) :
    s.connName id = s.name++(ascii "-"++(s.ipPort.toIpPort++(ascii "#"++decimal id))) := by
  have hid : (decimal id).length ≤ 10 := length_decimal (by decide) (by omega)
  have haddress := s.ipPort.length_toIpPort
  have hdash : (ascii "-").length = 1 := rfl
  have hhash : (ascii "#").length = 1 := rfl
  unfold connName
  rw [List.take_of_length_le]
  simp only [List.length_append, hdash, hhash]
  omega

theorem connName_inj {id id' : ℕ} (h : id < 2^31) (h' : id' < 2^31)
    (heq : s.connName id = s.connName id') : id = id' := by
  rw [connName_eq h, connName_eq h'] at heq
  have hdecimal : decimal id = decimal id' := by
    simpa only [List.append_cancel_left_eq] using heq
  have hvalue := decimal_decimal id'
  rw [← hdecimal] at hvalue
  exact (decimal_decimal id).unique hvalue

end TcpServer

end JingjieAR
