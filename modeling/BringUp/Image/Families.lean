import BringUp.Error
import BringUp.Image.Method

/-!
This module contains the write methods of the known families of boards.
-/

namespace BringUp

namespace WriteStage

def bootFile (dest : String) : WriteStage :=
  ⟨"uboot", .build "u-boot.bin", .files ⟨dest, 1, false⟩⟩

def bootDirectory (role file : String) : WriteStage :=
  ⟨role, .build file, .files ⟨"/", 1, true⟩⟩

def sector (role : String) (source : Artifact) (seek : UInt64) : WriteStage :=
  ⟨role, source, .image { ImageTarget.start with seek }⟩

end WriteStage

def SendStage.bootLoader : SendStage := ⟨"uboot", some "u-boot.bin", none⟩

namespace Method

def amlogic : Method where
  name := "amlogic"
  description := "Amlogic: signed image.bin at the start of the device"
  write := some [.sector "image" (.build "image.bin") 0]
  send := none

def bbb : Method where
  name := "bbb"
  description := "BeagleBone Black: u-boot.img at 384 KiB then MLO at 128 KiB"
  write := some
    [ ⟨"uboot", .build "u-boot.img", .image ⟨1, 393216, some 4⟩⟩,
      ⟨"mlo", .build "MLO", .image ⟨1, 131072, some 1⟩⟩ ]
  send := none

def em100 : Method where
  name := "em100"
  description := "x86: u-boot.rom into the SPI flash emulator"
  write := some [⟨"rom", .build "u-boot.rom", .emulator⟩]
  send := none

def qemu : Method where
  name := "qemu"
  description := "QEMU: nothing to write, the emulator loads the build directly"
  write := some []
  send := none

def rockchip : Method where
  name := "rockchip"
  description := "Rockchip: u-boot-rockchip.bin at sector 64"
  write := some [.sector "uboot" (.build "u-boot-rockchip.bin") 64]
  send := none

def rpi0 : Method where
  name := "rpi0"
  description := "Raspberry Pi Zero: u-boot.bin as kernel.img on the boot partition"
  write := some [.bootFile "/kernel.img"]
  send := none

def rpi2 : Method where
  name := "rpi2"
  description := "Raspberry Pi 2: u-boot.bin as kernel.img on the boot partition"
  write := some [.bootFile "/kernel.img"]
  send := none

def rpi3 : Method where
  name := "rpi3"
  description := "Raspberry Pi 3: u-boot.bin as rpi3-u-boot.bin on the boot partition"
  write := some [.bootFile "/rpi3-u-boot.bin"]
  send := none

def rpi4 : Method where
  name := "rpi4"
  description := "Raspberry Pi 4: u-boot.bin on the boot partition"
  write := some [.bootFile "/u-boot.bin"]
  send := none

def samsung : Method where
  name := "samsung"
  description := "Samsung Exynos: vendor bl1, bl2, tzsw then u-boot.bin"
  write := some
    [ .sector "bl1" (.blob .bl1) 1,
      .sector "bl2" (.blob .bl2) 31,
      .sector "tzsw" (.blob .tzsw) 2111,
      .sector "uboot" (.build "u-boot.bin") 63 ]
  send := some
    [⟨"bl1", none, some "bl1"⟩, ⟨"spl", some "spl/u-boot-spl.bin", some "spl"⟩, .bootLoader]

def sunxi : Method where
  name := "sunxi"
  description := "Allwinner: combined SPL image at 8 KiB, or FEL over USB"
  write := some [⟨"uboot", .build "u-boot-sunxi-with-spl.bin", .image ⟨8, 1024, none⟩⟩]
  send := some [⟨"spl", some "spl/sunxi-spl.bin", some "spl"⟩, .bootLoader]

def tegra : Method where
  name := "tegra"
  description := "NVIDIA Tegra: u-boot-dtb-tegra.bin over USB recovery"
  write := none
  send := some [⟨"uboot", some "u-boot-dtb-tegra.bin", none⟩]

def zynq : Method where
  name := "zynq"
  description := "Xilinx Zynq: boot.bin then u-boot.img on the boot partition"
  write := some [.bootDirectory "spl" "spl/boot.bin", .bootDirectory "uboot" "u-boot.img"]
  send := none

def all : List Method :=
  [amlogic, bbb, em100, qemu, rockchip, rpi0, rpi2, rpi3, rpi4, samsung, sunxi, tegra, zynq]

def ofName? (name : String) : Option Method :=
  all.find? (·.name = name)

def lookup (name : String) : Except Error Method :=
  match ofName? name with
  | some m => .ok m
  | none => .error (.unsupportedWriteMethod "writing" name)

end Method

end BringUp
