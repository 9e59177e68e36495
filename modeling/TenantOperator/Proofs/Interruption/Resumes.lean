import TenantOperator.Proofs.Interruption.Falters
import TenantOperator.Proofs.Interleaving.Publish
import TenantOperator.Proofs.Tenancy.Idempotence

/-! Runs that are given up on the way and begun anew. A program resumes on a store if, left at any
store that it comes through, it can be run again and ends with the very store that it would have
come to. What was done before the break has to rest when it is done again. -/
namespace TenantOperator
open Program Store

theorem Call.Reads.answer_snd {c : Call} (h : c.Reads) (s : Store) : (s.answer c).2 = s := by
  rcases s.answer_snd c with hs | ⟨k, r, hp, -⟩ | ⟨k, key, rfl, -⟩
  · exact hs
  · exact absurd (Or.inl hp) (h k r.key)
  · exact absurd (Or.inr rfl) (h k key)

namespace Program
variable {α β : Type} {s s₁ s' x : Store} {p : Program α} {f : α → Program β}

theorem passes_of_reads (hs : s.Calm) (h : p.Every Call.Reads) (hx : p.Passes s x) : x = s := by
  refine (Every.passes (I := (· = s)) h ?_ hs.filed rfl hx).1
  rintro _ c rfl hc
  rw [hs.perform, hc.answer_snd]

theorem rests_of_reads (hs : s.Calm) (h : p.Every Call.Reads) {a : α}
    (hr : p.run s = (.ok a, s')) : p.Rests s a := by
  have hx := passes_end p s
  rw [hr] at hx
  cases passes_of_reads hs h hx
  exact hr

theorem passes_read_bind (hs : s.Calm) (hp : p.Every Call.Reads) (hx : (p >>= f).Passes s x) :
    x = s ∨ ∃ a, p.Rests s a ∧ (f a).Passes s x := by
  rcases passes_bind.1 hx with hx | ⟨a, s₁, hr, hx⟩
  · exact Or.inl (passes_of_reads hs hp hx)
  · have hrest := rests_of_reads hs hp hr
    cases hr.symm.trans hrest
    exact Or.inr ⟨a, hrest, hx⟩

theorem passes_bind_done (hf : ∀ a, ∃ r, f a = .done r) (hx : (p >>= f).Passes s x) :
    p.Passes s x := by
  rcases passes_bind.1 hx with hx | ⟨a, s₁, hr, hx⟩
  · exact hx
  · obtain ⟨r, hfa⟩ := hf a
    rw [hfa] at hx
    cases hx
    have hend := passes_end p s
    rwa [hr] at hend

theorem passes_ensureCreated (hs : s.Calm) {k : Kind} {r : Resource k} {m : String}
    (hn : r.metadata.name = some m) (hx : (ensureCreated r).Passes s x) :
    x = s ∨ x = s.ensured r := by
  obtain ⟨q, hq⟩ := hx.falters hs
  exact (falters_ensureCreated hs hn hq).1

theorem passes_upsert (hs : s.Calm) {k : Kind} {key : Key} {n : Nat}
    {change : Option (Resource k) → Option (Resource k)} (hk : Upsert.Fits key change)
    (hx : (upsert key n change).Passes s x) : x = s ∨ x = s.upserted key change := by
  obtain ⟨q, hq⟩ := hx.falters hs
  exact (falters_upsert hs hk hq).1

theorem passes_delete (hs : s.Calm) {k : Kind} {key : Key}
    (hx : (Program.delete k key).Passes s x) : x = s ∨ x = s.remove k key := by
  rcases hx with rfl | rfl
  · exact Or.inl rfl
  · exact Or.inr (by rw [hs.perform]; rfl)

/-- Left at any store that it comes through and run again, the program ends with the store that it
would have come to. -/
def Resumes (p : Program α) (s : Store) : Prop :=
  ∀ ⦃x : Store⦄ ⦃a : α⦄ ⦃s' : Store⦄, p.Passes s x → p.run x = (.ok a, s') →
    ∃ b, p.run s = (.ok b, s')

theorem resumes_of_still (h : ∀ x, p.Passes s x → x = s) : p.Resumes s := by
  intro x a s' hx hr
  cases h x hx
  exact ⟨a, hr⟩

theorem resumes_of_ends (h : ∀ x, p.Passes s x →
    x = s ∨ (∃ a, p.run s = (.ok a, x)) ∧ ∃ a, p.Rests x a) : p.Resumes s := by
  intro x a s' hx hr
  rcases h x hx with rfl | ⟨⟨b, hb⟩, c, hc⟩
  · exact ⟨a, hr⟩
  · cases hc.symm.trans hr
    exact ⟨b, hb⟩

theorem resumes_read_bind (hs : s.Calm) (hp : p.Every Call.Reads)
    (hstay : ∀ a x, p.Rests s a → (p >>= f).Passes s x → (f a).Passes s x → p.Rests x a)
    (hf : ∀ a, p.Rests s a → (f a).Resumes s) : (p >>= f).Resumes s := by
  intro x b s' hx hr
  rcases passes_read_bind hs hp hx with rfl | ⟨a, ha, hfx⟩
  · exact ⟨b, hr⟩
  · rw [run_bind_of_ok (hstay a x ha hx hfx)] at hr
    rw [run_bind_of_ok ha]
    exact hf a ha hfx hr

variable {k : Kind} {key : Key} {r : Option (Resource k)}

theorem find?_of_passes_get_bind {g : Option (Resource k) → Program β} (hs : s.Calm)
    (hr : s.find? k key = r) (hstay : ∀ x, (g r).Passes s x → x.find? k key = r)
    (hx : (get k key >>= g).Passes s x) : x.find? k key = r := by
  rcases passes_read_bind hs (every_perform (Call.reads_get k key)) hx with rfl | ⟨a, ha, hx⟩
  · exact hr
  · obtain rfl : a = r := (run_get_ok ha).1.symm.trans hr
    exact hstay x hx

theorem resumes_get_bind {g : Option (Resource k) → Program β} (hs : s.Calm)
    (hr : s.find? k key = r) (hstay : ∀ x, (g r).Passes s x → x.find? k key = r)
    (hg : (g r).Resumes s) : (get k key >>= g).Resumes s := by
  refine resumes_read_bind hs (every_perform (Call.reads_get k key)) (fun a x ha hx _ => ?_)
    fun a ha => ?_
  all_goals obtain rfl : a = r := (run_get_ok ha).1.symm.trans hr
  · exact (hx.calm hs).rests_get (find?_of_passes_get_bind hs hr hstay hx)
  · exact hg

/-- Two parts, of which the first one rests wherever the second one is left. -/
theorem resumes_seq {q : Program β} (hp : p.Resumes s)
    (hstay : ∀ a s₁ x, p.run s = (.ok a, s₁) → q.Passes s₁ x → ∃ a', p.Rests x a')
    (hq : ∀ a s₁, p.run s = (.ok a, s₁) → q.Resumes s₁) : (p >>= fun _ => q).Resumes s := by
  intro x b s' hx hr
  rcases passes_bind.1 hx with hx | ⟨a, s₁, ha, hx⟩
  · obtain ⟨a, s₁, ha, hr⟩ := run_bind_ok.1 hr
    obtain ⟨a', ha'⟩ := hp hx ha
    exact ⟨b, by rw [run_bind_of_ok ha', hr]⟩
  · obtain ⟨a', ha'⟩ := hstay a s₁ x ha hx
    rw [run_bind_of_ok ha'] at hr
    rw [run_bind_of_ok ha]
    exact hq a s₁ ha hx hr

theorem resumes_bind_pure (hp : p.Resumes s) (b : β) : (p >>= fun _ => pure b).Resumes s := by
  intro x b' s' hx hr
  obtain ⟨a, s₁, ha, hr⟩ := run_bind_ok.1 hr
  cases hr
  obtain ⟨a', ha'⟩ := hp (passes_bind_done (fun _ => ⟨_, rfl⟩) hx) ha
  exact ⟨b, by rw [run_bind_of_ok ha', run_pure]⟩

end Program
end TenantOperator
