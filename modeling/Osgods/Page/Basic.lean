import Osgods.Types
import Osgods.Library.BitField

/-!
# Page directory and page tables (`page.c`, `page.h`)

The functions of `page.c` as transformers of the three tables. Each of them ends with `flush_tlb`,
so the tables are what the processor translates with (see `Osgods.Page.Translate`).
-/

namespace Osgods

open BitField

/-- Where the linker puts the two page tables. They are 4096-byte aligned, so a frame number says
it all. `other` is what the processor would read as a page table anywhere else. -/
structure Layout where
  pageTable    : BitVec 20
  pageVidTable : BitVec 20
  distinct     : pageTable ≠ pageVidTable
  other        : BitVec 20 → BitVec 10 → Word

/-- The address of a 4 KB frame. -/
def frameAddress (n : BitVec 20) : Word := n ++ (0 : BitVec 12)

structure PageTables where
  pageDir      : BitVec 10 → Word
  pageTable    : BitVec 10 → Word
  pageVidTable : BitVec 10 → Word

/-- The tables as `x86_desc.S` reserves them. -/
def PageTables.zero : PageTables := ⟨fun _ => 0#32, fun _ => 0#32, fun _ => 0#32⟩

/-! ### Macros of `page.h` and bit-fields of `x86_desc.h` -/

def videoMemoryAddr : Word := 0xB8000

def setPageBaseAddress1 (x : Word) : Word := x ||| (1 <<< 22)
def setPresent (x : Word) : Word := x ||| 0x00000001
def setPageSize1 (x : Word) : Word := x ||| 0x00000080
def setReadWrite1 (x : Word) : Word := x ||| 0x00000002
def setUseSupervisor (x : Word) : Word := x ||| 0x4

def setPageBaseAddressUsr1 (x : Word) : Word := x ||| 0x800000
def setPageBaseAddressUsr2 (x : Word) : Word := x ||| 0xC00000
def setPageBaseAddressUsr3 (x : Word) : Word := x ||| 0x1000000
def setPageBaseAddressUsr4 (x : Word) : Word := x ||| 0x5000000
def setPageBaseAddressUsr5 (x : Word) : Word := x ||| 0x9000000
def setPageBaseAddressUsr6 (x : Word) : Word := x ||| 0xD000000

/-- Assignments to the `Present`, `Read_Write`, `Use_Supervisor` and base address fields. -/
def assignPresent (e v : Word) : Word := set e 0 1 v
def assignReadWrite (e v : Word) : Word := set e 1 1 v
def assignUseSupervisor (e v : Word) : Word := set e 2 1 v
def assignBaseAddress (e v : Word) : Word := set e 12 20 v

/-! ### `page.c` -/

/-- The directory entry that `init_paging` builds for the first 4 MB. -/
def pde4k (L : Layout) : Word :=
  assignBaseAddress (assignPresent 0 1) (frameAddress L.pageTable >>> 12)

/-- The directory entry of the kernel page. -/
def pde4m : Word :=
  setReadWrite1 (setPageBaseAddress1 (setPageSize1 (setPresent 0)))

/-- The entry of the page table for the text-video page. -/
def videoPte : Word :=
  assignUseSupervisor (assignReadWrite (assignPresent
    (assignBaseAddress 0 (videoMemoryAddr >>> 12)) 1) 1) 1

def initPaging (L : Layout) (pt : PageTables) : PageTables where
  pageDir      := Function.update (Function.update (fun _ => 0#32) 0#10 (pde4k L)) 1#10 pde4m
  pageTable    := Function.update (fun _ => 0#32) ((videoMemoryAddr >>> 12).setWidth 10) videoPte
  pageVidTable := pt.pageVidTable

/-- The directory entry that `set_up_paging` builds for a process. -/
def userPde (pid : Word) : Word :=
  let pde := setPageSize1 (setPresent 0)
  let pde := if pid = 0 then setPageBaseAddressUsr1 pde else pde
  let pde := if pid = 1 then setPageBaseAddressUsr2 pde else pde
  let pde := if pid = 2 then setPageBaseAddressUsr3 pde else pde
  let pde := if pid = 3 then setPageBaseAddressUsr4 pde else pde
  let pde := if pid = 4 then setPageBaseAddressUsr5 pde else pde
  let pde := if pid = 5 then setPageBaseAddressUsr6 pde else pde
  setUseSupervisor (setReadWrite1 pde)

def PageTables.setUpPaging (pid : Word) (pt : PageTables) : PageTables :=
  { pt with pageDir := Function.update pt.pageDir 32#10 (userPde pid) }

/-- The entry that `set_user_video_map` leaves in `page_vid_table[0]`. -/
def userVideoPte : Word :=
  assignReadWrite (assignPresent (assignUseSupervisor
    (assignBaseAddress 0 (videoMemoryAddr >>> 12)) 1) 1) 1

/-- The directory entry of the user video page. -/
def userVideoPde (L : Layout) : Word := 0x7 ||| frameAddress L.pageVidTable

def PageTables.setUserVideoMap (L : Layout) (pt : PageTables) : PageTables :=
  { pt with
    pageDir      := Function.update pt.pageDir 33#10 (userVideoPde L)
    pageVidTable := Function.update (fun _ => 0#32) 0#10 userVideoPte }

def PageTables.mapVideoPage (pageAddr targetAddr present : Word) (pt : PageTables) :
    PageTables :=
  let i := (pageAddr >>> 12).setWidth 10
  let e := assignBaseAddress (pt.pageTable i) (targetAddr.sshiftRight 12)
  let e := assignPresent e present
  let e := assignReadWrite e 1
  let e := assignUseSupervisor e 1
  { pt with pageTable := Function.update pt.pageTable i e }

/-- The base address and the present bit go to `page_vid_table[0]`, the other two flags to
`page_table[0]`. -/
def PageTables.setVidMap (targetAddr present : Word) (pt : PageTables) : PageTables :=
  let e := assignBaseAddress (pt.pageVidTable 0#10) (targetAddr.sshiftRight 12)
  let e := assignPresent e present
  { pt with
    pageVidTable := Function.update pt.pageVidTable 0#10 e
    pageTable    := Function.update pt.pageTable 0#10
      (assignUseSupervisor (assignReadWrite (pt.pageTable 0#10) 1) 1) }

/-- `terminal_list[t].video_page`, as `terminal_init` sets it. -/
def videoPage (t : Tid) : Word := videoMemoryAddr + BitVec.ofNat 32 ((t + 1) * kb4)

/-- The tables after `init_paging` and the three calls of `map_video_page` in `terminal_init`. -/
def bootTables (L : Layout) : PageTables :=
  (List.finRange 3).foldl (fun pt t => pt.mapVideoPage (videoPage t) (videoPage t) 1)
    (initPaging L .zero)

/-! ### What each function leaves alone -/

@[simp] lemma setUpPaging_pageDir (pid : Word) (pt : PageTables) :
    (pt.setUpPaging pid).pageDir = Function.update pt.pageDir 32#10 (userPde pid) := rfl

@[simp] lemma setUpPaging_pageTable (pid : Word) (pt : PageTables) :
    (pt.setUpPaging pid).pageTable = pt.pageTable := rfl

@[simp] lemma setUpPaging_pageVidTable (pid : Word) (pt : PageTables) :
    (pt.setUpPaging pid).pageVidTable = pt.pageVidTable := rfl

@[simp] lemma setVidMap_pageDir (a v : Word) (pt : PageTables) :
    (pt.setVidMap a v).pageDir = pt.pageDir := rfl

@[simp] lemma mapVideoPage_pageDir (a b v : Word) (pt : PageTables) :
    (pt.mapVideoPage a b v).pageDir = pt.pageDir := rfl

@[simp] lemma mapVideoPage_pageVidTable (a b v : Word) (pt : PageTables) :
    (pt.mapVideoPage a b v).pageVidTable = pt.pageVidTable := rfl

@[simp] lemma setUserVideoMap_pageTable (L : Layout) (pt : PageTables) :
    (pt.setUserVideoMap L).pageTable = pt.pageTable := rfl

lemma foldl_mapVideoPage_pageDir (l : List Tid) (pt : PageTables) :
    (l.foldl (fun pt t => pt.mapVideoPage (videoPage t) (videoPage t) 1) pt).pageDir
      = pt.pageDir := by
  induction l generalizing pt with
  | nil => rfl
  | cons t l ih => rw [List.foldl_cons, ih, mapVideoPage_pageDir]

lemma foldl_mapVideoPage_pageVidTable (l : List Tid) (pt : PageTables) :
    (l.foldl (fun pt t => pt.mapVideoPage (videoPage t) (videoPage t) 1) pt).pageVidTable
      = pt.pageVidTable := by
  induction l generalizing pt with
  | nil => rfl
  | cons t l ih => rw [List.foldl_cons, ih, mapVideoPage_pageVidTable]

@[simp] lemma bootTables_pageDir (L : Layout) :
    (bootTables L).pageDir =
      Function.update (Function.update (fun _ => 0#32) 0#10 (pde4k L)) 1#10 pde4m :=
  foldl_mapVideoPage_pageDir _ _

@[simp] lemma bootTables_pageVidTable (L : Layout) : (bootTables L).pageVidTable = fun _ => 0#32 :=
  foldl_mapVideoPage_pageVidTable _ _

end Osgods
