import HwDrivers.Producer

/-! The cache server's `data_reader_thread` copies a sample and an average out
of the segment under the semaphore. Its header's `shared_data_t` has a
`current_sample` field that the producer's `producer.h` does not declare; what
that read sees of the producer's segment is a parameter. -/

namespace HwDrivers

/-- `data_reader_thread`, lines 172-175 of the cache server:
`sample = current_sample; avg = buffer[BUFFER_SIZE - 1]`. -/
def readerCopy (currentSample : SharedData → Sample) (d : SharedData) : Sample × Sample :=
  (currentSample d, d.buffer ⟨BUFFER_SIZE - 1, by decide⟩)

theorem appendAll_buffer_untouched (ss : List Sample) (i : Fin BUFFER_SIZE)
    (h : ss.length ≤ i.val) : (ss.foldl SharedData.append SharedData.zero).buffer i = 0 := by
  induction ss using List.reverseRecOn with
  | nil => rfl
  | append_singleton ss s ih =>
    simp only [List.length_append, List.length_singleton] at h
    have hw := (tracks_appendAll ss).write_index_eq
    have hne : i ≠ (ss.foldl SharedData.append SharedData.zero).write_index := by
      rw [Ne, Fin.ext_iff, hw]; have := i.isLt; simp only [BUFFER_SIZE] at *; omega
    rw [List.foldl_append, List.foldl_cons, List.foldl_nil, SharedData.append_buffer,
      Function.update_noteq hne, ih (by omega)]

theorem readerCopy_average_of_lt (currentSample : SharedData → Sample) (ss : List Sample)
    (h : ss.length < BUFFER_SIZE) :
    (readerCopy currentSample (ss.foldl SharedData.append SharedData.zero)).2 = 0 :=
  appendAll_buffer_untouched ss _ (by simp only [BUFFER_SIZE] at *; omega)

/-- One sample with `ax = 1` appended: the producer's average is that sample,
the pair the reader publishes has the zero sample as its average. -/
theorem readerCopy_one_sample (currentSample : SharedData → Sample) :
    (readerCopy currentSample ([⟨1, 0, 0, 0, 0, 0, 0⟩].foldl SharedData.append
      SharedData.zero)).2 = 0 ∧
    ([⟨1, 0, 0, 0, 0, 0, 0⟩].foldl SharedData.append SharedData.zero).average =
      ⟨1, 0, 0, 0, 0, 0, 0⟩ := by
  refine ⟨readerCopy_average_of_lt currentSample _ (by decide), ?_⟩
  rw [List.foldl_cons, List.foldl_nil, tracks_zero.append_average]
  simp [BUFFER_SIZE]

end HwDrivers
