import SarkariWorld.Content.Columns
import SarkariWorld.Lib.CommitLog
import SarkariWorld.Site.Interleavings

/-!
# The last edit

An update writes the columns in which its copy differs from the row it had loaded, and
no others. Requests that overlap take nothing from each other, then, unless they set the
same column: what a column holds is what the last commit that wrote it had been asked for.

`columns_last_edited` says so of every column of every article, however requests
overlap, and leads each value back to the request and to the member of staff who sent it.

A request asks for data: what `build_article_data` makes of its body, or a status
(`requestData`). `Commission` is the part of the licence that remembers this, so that a
commit can be compared with what was asked for, column by column. The log of the server
then tells which commit wrote a column last.
-/

namespace SarkariWorld.Site.Threads

open SarkariWorld.Lib SarkariWorld.Auth SarkariWorld.Content
open SarkariWorld.Lib.Thread

/-! ## What is asked for -/

/-- A new status, as data. -/
def statusData (status : ArticleStatus) : ArticleData :=
  ⟨none, none, none, none, some status, none, none, none, none, none, none, none, none, none,
    none, none, none⟩

/-- What a request asks to have stored, before a date is put in. A deletion asks for
nothing. -/
def requestData (content : Content.Env) (author : Author) : PostRequest → Option ArticleData
  | .createPost payload => some (buildArticleData content payload.dump (some author) none)
  | .updatePost _ payload => some (buildArticleData content payload.dump (some author) none)
  | .updatePostStatus _ status => some (statusData status)
  | .publishArticle payload =>
    some { buildArticleData content payload.dump (some author)
      (some (payload.content.get.getD [])) with articleStatus := some .draft }
  | .deletePost _ => none

/-- The path of the article that a request changes. -/
def editedSlug : PostRequest → Option Text
  | .updatePost slug _ | .updatePostStatus slug _ => some slug
  | .createPost _ | .publishArticle _ | .deletePost _ => none

/-- A member of staff has asked for the data, and it is as it was asked for; or it was to
be published without a date, and has been given that of one of the moments. -/
def AskedFor (o : Origin) (seen : Moments) (post : PostRequest) (data : ArticleData) : Prop :=
  ∃ actor wanted, Admitted o seen (.manage (postMethod post)) actor ∧
    requestData o.content (author actor) post = some wanted ∧
      (data = wanted ∨ wanted.undatedPublish ∧ ∃ d clock, (d, clock) ∈ seen ∧
        data = wanted.stamp clock)

/-- What is put into the articles was asked for. -/
inductive Commission (o : Origin) (seen : Moments) : WriteRequest → Change → Prop where
  | add (post : PostRequest) (data : ArticleData) (hasked : AskedFor o seen post data)
      (hadds : addsArticle post = true) : Commission o seen (.post post) (.article (.insert data))
  | edit (post : PostRequest) (a : Article) (data : ArticleData) (now : Int)
      (hasked : AskedFor o seen post data) (ha : StoredArticle seen a)
      (hslug : editedSlug post = some a.slug) :
      Commission o seen (.post post) (.article (stampUpdated a.load (data.assign a.load) now))
  | remove (request : WriteRequest) (loaded : ArticleObject) :
      Commission o seen request (.article (.delete loaded))
  | elsewhere (request : WriteRequest) (change : Change) (h : ∀ write, change ≠ .article write) :
      Commission o seen request change

section Handlers

variable {o : Origin} {seen : Moments} {guard : Guard} {actor : User}

/-- A handler that goes on once its guard has let the caller through. -/
theorem justified_authed {J : Moments → Change → Prop} {α : Type} {f : User → Steps α}
    (h : ∀ actor moment, Admitted o [moment] guard actor → (f actor).Justified J [moment]) :
    (authed o guard >>= f).Justified J [] :=
  justified_read fun d clock actor hactor =>
    h actor (d, clock) ⟨d, clock, List.mem_singleton_self _, hactor⟩

theorem AskedFor.plain {post : PostRequest} {data : ArticleData}
    (hactor : Admitted o seen (.manage (postMethod post)) actor)
    (hwanted : requestData o.content (author actor) post = some data) :
    AskedFor o seen post data :=
  ⟨actor, data, hactor, hwanted, .inl rfl⟩

/-- What has been asked for has been, however many exchanges come after. -/
theorem AskedFor.cons {post : PostRequest} {data : ArticleData} (h : AskedFor o seen post data)
    (moment : Database × Nat) : AskedFor o (moment :: seen) post data := by
  obtain ⟨actor, wanted, hactor, hwanted, hdata⟩ := h
  refine ⟨actor, wanted, hactor.cons moment, hwanted, hdata.imp_right ?_⟩
  rintro ⟨hundated, d, clock, hmem, hstamped⟩
  exact ⟨hundated, d, clock, List.mem_cons_of_mem _ hmem, hstamped⟩

/-- The date is put in on a condition that is at least that the data lacks one. -/
theorem AskedFor.stamped {post : PostRequest} {data : ArticleData} {p : Prop} [Decidable p]
    {d : Database} {clock : Nat}
    (hactor : Admitted o seen (.manage (postMethod post)) actor)
    (hwanted : requestData o.content (author actor) post = some data)
    (hp : p → data.undatedPublish) :
    AskedFor o ((d, clock) :: seen) post (if p then data.stamp clock else data) := by
  refine ⟨actor, data, hactor.cons _, hwanted, ?_⟩
  by_cases h : p
  · rw [if_pos h]
    exact .inr ⟨hp h, d, clock, List.mem_cons_self .., rfl⟩
  · rw [if_neg h]
    exact .inl rfl

/-- What is inserted is the payload's data, dated if it is published without a date. -/
theorem createPost_commissioned (payload : ArticleCreate) :
    (createPost o payload).Justified (Commission o · (.post (.createPost payload))) [] := by
  refine justified_authed fun actor moment hactor => justified_read fun d clock taken _ => ?_
  split
  next => exact justified_raise _
  next =>
    refine justified_now fun d' clock' => justified_save ?_ fun _ =>
      (refreshArticle_quiet _).justified
    exact .add _ _ (.stamped (hactor.cons _) rfl id) rfl

/-- What is written is the payload's data over the loaded article, whose slug is the one in the
path. -/
theorem updatePost_commissioned (slug : Text) (payload : ArticleUpdate) :
    (updatePost o slug payload).Justified (Commission o · (.post (.updatePost slug payload)))
      [] := by
  refine justified_authed fun actor moment hactor => justified_read fun d clock a ha => ?_
  obtain ⟨hmem, rfl, -⟩ := getArticle_ok ha
  have hrest : ∀ {seen}, Admitted o seen (.manage .put) actor → StoredArticle seen a →
      Justified (Commission o · (.post (.updatePost a.slug payload))) seen (do
        let data := buildArticleData o.content payload.dump (some (author actor)) none
        let clock ← now
        let data :=
          if data.undatedPublish ∧ a.publishedAt = none then data.stamp clock else data
        let clock ← now
        let _ ← save (.article (update clock a.load data))
        refreshArticle a.id) := by
    intro seen hactor ha
    refine justified_now fun d clock => justified_now fun d' clock' => justified_save ?_ fun _ =>
      (refreshArticle_quiet _).justified
    exact .edit _ a _ _ ((AskedFor.stamped hactor rfl And.left).cons _) ((ha.cons _).cons _) rfl
  have ha : StoredArticle ((d, clock) :: [moment]) a := stored_now hmem
  exact justified_checkSlug (hrest (hactor.cons _) ha) fun moment =>
    hrest ((hactor.cons _).cons _) (ha.cons _)

/-- A new status is assigned as the data for it is. -/
theorem assignStatus_eq (article : ArticleObject) (status : ArticleStatus) (clock : Nat) :
    article.assignStatus status (nowIst clock) =
      (if status = .published ∧ article.publishedAt = none then (statusData status).stamp clock
        else statusData status).assign article := by
  unfold ArticleOf.assignStatus
  dsimp only
  split
  · rfl
  · rfl

/-- A change of status is an edit whose data is the status alone. -/
theorem updatePostStatus_commissioned (slug : Text) (status : ArticleStatus) :
    (updatePostStatus o slug status).Justified
      (Commission o · (.post (.updatePostStatus slug status))) [] := by
  refine justified_authed fun actor moment hactor => justified_read fun d clock a ha => ?_
  obtain ⟨hmem, rfl, -⟩ := getArticle_ok ha
  refine justified_now fun d' clock' => justified_save ?_ fun _ =>
    (refreshArticle_quiet _).justified
  unfold setStatus
  rw [assignStatus_eq]
  refine .edit _ a _ _ (.stamped (hactor.cons _) rfl fun hp => ?_) ((stored_now hmem).cons _) rfl
  exact ⟨congrArg some hp.1, rfl⟩

theorem publishArticle_commissioned (payload : ArticlePublish) :
    (publishArticle o payload).Justified (Commission o · (.post (.publishArticle payload)))
      [] := by
  refine justified_authed fun actor moment hactor => ?_
  split
  next => exact justified_raise _
  next =>
    refine justified_read fun d clock taken _ => ?_
    split
    next => exact justified_raise _
    next =>
      exact justified_save (.add _ _ (.plain (hactor.cons _) rfl) rfl) fun _ =>
        (refreshArticle_quiet _).justified

/-- What is licensed and puts nothing into the articles is commissioned. -/
theorem Licence.commission {request : WriteRequest} {change : Change}
    (h : Licence o seen request change) (hpost : ∀ post, request = .post post →
      ∃ slug, post = .deletePost slug) : Commission o seen request change := by
  cases h with
  | addArticle post actor data hactor hadds =>
    obtain ⟨slug, rfl⟩ := hpost post rfl
    cases hadds
  | editArticle post actor a assigned hactor hedits =>
    obtain ⟨slug, rfl⟩ := hpost post rfl
    cases hedits
  | deleteArticle slug actor a hactor ha => exact .remove _ _
  | _ => exact .elsewhere _ _ fun _ h => by cases h

/-- **Whatever is put into the articles was asked for.** -/
theorem handleWrite_commissioned (request : WriteRequest) :
    (handleWrite o request).Justified (Commission o · request) [] := by
  have hlicensed : (∀ post, request = .post post → ∃ slug, post = .deletePost slug) →
      (handleWrite o request).Justified (Commission o · request) [] := fun hpost =>
    (handleWrite_licensed request).imp fun _ _ h => h.commission hpost
  cases request with
  | post post =>
    cases post with
    | createPost payload => exact createPost_commissioned payload
    | updatePost slug payload => exact updatePost_commissioned slug payload
    | updatePostStatus slug status => exact updatePostStatus_commissioned slug status
    | publishArticle payload => exact publishArticle_commissioned payload
    | deletePost slug => exact hlicensed fun post h => ⟨slug, (WriteRequest.post.inj h).symm⟩
  | _ => exact hlicensed fun _ h => by cases h

end Handlers

/-! ## One commit -/

/-- The commit writes the column of article `i`. -/
def WritesColumn (c : ArticleColumn) (i : Int) (entry : Lib.Entry Change) : Prop :=
  match entry.write with
  | .article (.insert _) => entry.number = i
  | .article (.update loaded assigned) => loaded.id = i ∧ c.held assigned ≠ c.held loaded
  | _ => False

/-- What the commit writes in the column. -/
def PutsColumn (c : ArticleColumn) (entry : Lib.Entry Change) (v : c.Stored) : Prop :=
  match entry.write with
  | .article (.insert data) => c.Created data v
  | .article (.update _ assigned) => c.encode (c.held assigned) = .ok v
  | _ => False

/-- Article `i` is stored, with this in the column. -/
def HoldsColumn (c : ArticleColumn) (i : Int) (d : Database) (v : c.Stored) : Prop :=
  ∃ a ∈ d.articles.rows, a.id = i ∧ c.stored a = v

/-- A column is left alone, or written. -/
theorem flush_column {c : ArticleColumn} {i : Int} {entry : Lib.Entry Change} {d d' : Database}
    {v : c.Stored} (h : flush entry.clock entry.number d entry.write = .ok d')
    (hv : HoldsColumn c i d' v) :
    ¬ WritesColumn c i entry ∧ HoldsColumn c i d v ∨
      WritesColumn c i entry ∧ PutsColumn c entry v := by
  obtain ⟨r, change, clock, number⟩ := entry
  have hkept : ∀ {d₁ : Database}, d₁.articles = d.articles → HoldsColumn c i d₁ v →
      HoldsColumn c i d v := by
    intro d₁ hsame hv
    rwa [HoldsColumn, hsame] at hv
  cases change with
  | user write =>
    obtain ⟨written, -, hrest⟩ := flush_user h
    exact .inl ⟨id, hkept (hrest ▸ rfl) hv⟩
  | bookmark write => exact .inl ⟨id, hkept ((flush_bookmark h).2 ▸ rfl) hv⟩
  | webUrl write => exact .inl ⟨id, hkept ((flush_webUrl h).2 ▸ rfl) hv⟩
  | article write =>
    obtain ⟨a, ha, hid, hstored⟩ := hv
    obtain ⟨heffect, -⟩ := flush_article h
    cases heffect with
    | insert data row hrow hrows =>
      have hrowid : row.id = number := newRow_id hrow
      have hnew : row ∈ d'.articles.rows := by
        rw [hrows]
        exact List.mem_append_right _ (List.mem_singleton_self row)
      by_cases hnumber : number = i
      -- the new row is the one with this number, so the cell is the one it was created with
      · have hsame : a = row := eq_of_uniqueCol d'.articles.uniqueId ha hnew
          (ArticleOf.idCol_eq_some.mpr hid) (ArticleOf.idCol_eq_some.mpr (hrowid.trans hnumber))
        rw [hsame] at hstored
        refine .inr ⟨hnumber, ?_⟩
        show c.Created data v
        rw [← hstored]
        exact c.created hrow
      · refine .inl ⟨hnumber, a, ?_, hid, hstored⟩
        rw [hrows] at ha
        refine (List.mem_append.mp ha).resolve_right fun hlast => hnumber ?_
        rw [← hrowid, ← List.mem_singleton.mp hlast, hid]
    | same loaded hrows =>
      rw [hrows] at ha
      exact .inl ⟨fun hwrites => hwrites.2 rfl, a, ha, hid, hstored⟩
    | update loaded assigned encoded hencoded hrows =>
      rw [hrows] at ha
      obtain ⟨b, hb, rfl⟩ := mem_updateWhere.mp ha
      split at hid
      next hkey =>
        rw [if_pos hkey] at hstored
        have hbid : b.id = loaded.id := ArticleOf.idCol_eq_some.mp hkey
        by_cases hheld : c.held assigned = c.held loaded
        -- the row is written, but this column is not among those that changed
        · refine .inl ⟨fun hwrites => hwrites.2 hheld, b, hb, hid, ?_⟩
          rw [← hstored, c.kept encoded b hheld]
        · refine .inr ⟨⟨hbid.symm.trans hid, hheld⟩, ?_⟩
          show c.encode (c.held assigned) = .ok v
          rw [c.flushed b hheld hencoded, hstored]
      next hkey =>
        rw [if_neg hkey] at hstored
        refine .inl ⟨fun hwrites => hkey ?_, b, hb, hid, hstored⟩
        exact ArticleOf.idCol_eq_some.mpr (hid.trans hwrites.1.symm)
    | delete loaded hrows =>
      rw [hrows] at ha
      exact .inl ⟨id, a, (List.mem_filter.mp ha).1, hid, hstored⟩

/-! ## Whose value it is -/

/-- The request asks for this value in the column of article `i`: as part of the data of a
new article, or under a key of the data for one its path names. -/
inductive Wants (o : Origin) (seen : Moments) (c : ArticleColumn) (i : Int) (v : c.Stored) :
    WriteRequest → Prop where
  | add (post : PostRequest) (data : ArticleData) (hasked : AskedFor o seen post data)
      (hadds : addsArticle post = true) (hv : c.Created data v) : Wants o seen c i v (.post post)
  | edit (post : PostRequest) (a : Article) (data : ArticleData)
      (hasked : AskedFor o seen post data) (ha : StoredArticle seen a)
      (hslug : editedSlug post = some a.slug) (hid : a.id = i) (hv : c.Sent data v) :
      Wants o seen c i v (.post post)

/-- A commit that writes a column puts there what its request asks for in this column. -/
theorem Commission.wants {o : Origin} {seen : Moments} {request : WriteRequest}
    {c : ArticleColumn} {i : Int} {entry : Lib.Entry Change} {v : c.Stored}
    (h : Commission o seen request entry.write) (hwrites : WritesColumn c i entry)
    (hputs : PutsColumn c entry v) : Wants o seen c i v request := by
  obtain ⟨r, change, clock, number⟩ := entry
  cases h with
  | add post data hasked hadds => exact .add post data hasked hadds hputs
  | edit post a data now hasked ha hslug =>
    obtain ⟨hid, hdiffers⟩ := hwrites
    refine .edit post a data hasked ha hslug hid ?_
    -- A copy with no change is not stamped, and has no column that differs.
    by_cases hclean : data.assign a.load = a.load
    · rw [if_neg fun h => h hclean, hclean] at hdiffers
      exact absurd rfl hdiffers
    · have hassigned := c.assigned data a.load now
      change c.encode (c.held (if data.assign a.load ≠ a.load then _ else _)) = .ok v at hputs
      rw [if_pos hclean, hassigned] at hdiffers hputs
      cases hkey : c.key data with
      | none =>
        rw [hkey] at hdiffers
        exact absurd rfl hdiffers
      | some value =>
        rw [hkey] at hputs
        exact ⟨value, hkey, hputs⟩
  | remove request loaded => exact hwrites.elim
  | elsewhere request change hother =>
    cases change with
    | article write => exact absurd rfl (hother write)
    | user write => exact hwrites.elim
    | bookmark write => exact hwrites.elim
    | webUrl write => exact hwrites.elim

/-! ## Runs -/

section Runs

variable (auth : Auth.Env) (content : Content.Env) (s₀ : Traffic) (moves : List SiteMove)
  (s : Traffic) (c : ArticleColumn) (a : Article)

/-- No commit has written the column of the article, and it is as it was at the start. -/
def Unwritten : Prop :=
  (∀ entry ∈ s.log, ¬ WritesColumn c a.id entry) ∧ HoldsColumn c a.id s₀.stored (c.stored a)

/-- The column holds what the last commit that wrote it was asked for, by a request of the
run. -/
def LastEdited : Prop :=
  ∃ pre entry post asked seen, s.log = pre ++ entry :: post ∧ WritesColumn c a.id entry ∧
    (∀ later ∈ post, ¬ WritesColumn c a.id later) ∧ Move.start entry.request asked ∈ moves ∧
    SeenIn store (program auth content) s₀ moves seen ∧
    Wants ⟨auth, content, asked.creds, asked.draw⟩ seen c a.id (c.stored a) asked.request

end Runs

/-- **Nothing is lost but to a later edit of the same column.** -/
theorem columns_last_edited {auth : Auth.Env} {content : Content.Env} {s₀ s : Traffic}
    {moves : List SiteMove} (h₀ : s₀.Fresh)
    (h : exec (siteMove auth content) s₀ moves = some s) :
    ∀ c ∈ columns, ∀ a ∈ s.stored.articles.rows,
      Unwritten s₀ s c a ∨ LastEdited auth content s₀ moves s c a := by
  intro c _ a ha
  have hcommissioned : ∀ asked : Asked, (program auth content asked).Justified
      (Commission ⟨auth, content, asked.creds, asked.draw⟩ · asked.request) [] :=
    fun asked => handleWrite_commissioned asked.request
  -- every entry of the log has the request that asked for it, with the moments it saw
  have hlogged := exec_logged (J := fun asked seen =>
    Commission ⟨auth, content, asked.creds, asked.draw⟩ seen asked.request) hcommissioned h₀ h
  have hstep : ∀ (d : Database) (entry : Lib.Entry Change) d' v,
      store.apply entry.clock entry.number d entry.write = .ok d' → HoldsColumn c a.id d' v →
        ¬ WritesColumn c a.id entry ∧ HoldsColumn c a.id d v ∨
          WritesColumn c a.id entry ∧ PutsColumn c entry v := fun _ _ _ _ => flush_column
  have hholds : HoldsColumn c a.id s.stored (c.stored a) := ⟨a, ha, rfl, rfl⟩
  -- and going back from the end of the log, the cell has the last entry that wrote it
  refine (last_write (δ := Database) hstep (exec_replayed h₀ h) hholds).imp_right ?_
  rintro ⟨pre, entry, post, hlog, hwrites, hputs, hlater⟩
  have hmem : entry ∈ s.log := by
    rw [hlog]
    exact List.mem_append_right _ List.mem_cons_self
  obtain ⟨asked, seen, hstart, hseen, hcommission⟩ := hlogged entry hmem
  exact ⟨pre, entry, post, asked, seen, hlog, hwrites, hlater, hstart, hseen,
    hcommission.wants hwrites hputs⟩

/-- An article is created; then its date and its status are set, by two requests that both
load it before either commits. -/
def overlappingEdits : List SiteMove :=
  [keyStart 0 (.post (.createPost (samplePayload .omitted .omitted))), .go 0 2, .go 0 2, .go 0 2,
    .go 0 2, .go 0 2, .go 0 2,
    keyStart 1 (.post (.updatePost "result".toList (sampleEdit (.value (naive 0)) .omitted))),
    keyStart 2 (.post (.updatePostStatus "result".toList .archived)), .go 1 2, .go 1 2, .go 2 2,
    .go 2 2, .go 2 2, .go 2 2, .go 1 2, .go 1 2, .go 1 2]

/-- One request archives the article while another dates it. Both edits are in the row that is left.
-/
theorem overlapping_edits_kept :
    ∃ s, exec (siteMove Auth.sampleEnv Content.sampleEnv) quietSite overlappingEdits = some s ∧
      s.stored.articles.rows.map (fun a => (a.publishedAt, a.articleStatus)) =
        [(some 0, .archived)] ∧
      ∀ c ∈ columns, ∀ a ∈ s.stored.articles.rows, Unwritten quietSite s c a ∨
        LastEdited Auth.sampleEnv Content.sampleEnv quietSite overlappingEdits s c a := by
  have hrun : (exec (siteMove Auth.sampleEnv Content.sampleEnv) quietSite overlappingEdits).map
      (fun s => decide (s.stored.articles.rows.map (fun a => (a.publishedAt, a.articleStatus)) =
        [(some 0, .archived)])) = some true := by
    decide +kernel
  obtain ⟨s, hs, hrows⟩ := exec_of_test hrun
  exact ⟨s, hs, of_decide_eq_true hrows, columns_last_edited quietSite_fresh hs⟩

end SarkariWorld.Site.Threads
